import Caretaker.Proofs.Bystander
import Caretaker.Proofs.Settled
import Caretaker.Proofs.Sights

/-!
# The phases that others see of a replace

A replace shows each phase that it enters before it makes the calls of that phase, and shows at last
how it ended.  So who reads the copy of the roster sees one course of phases, which is cut where a
step fails, and finds each call in the phase it belongs to.

Main definitions:

- `Replace.course`: the phases that a replace shows, by its result.
- `Replace.InSight`: what can be seen of a replace.
- `Replace.Trail`: what was seen so far, while the steps go on.

Main statements:

- `Replace.Trail.ensures_steps`: the steps leave the trail of the phases they entered.
- `replace_in_sight`: every update that gives a role an image is seen as it should be.
-/

namespace Caretaker.Crew

open Container (Backend)
open Script Transaction

/-- The phase that a call of a replace belongs to. -/
def phaseDuring : Container.Call → Option Phase
  | .terminate _ | .awaitExit _ => some .stopping
  | .prune | .awaitPrune _ => some .pruning
  | .start _ | .awaitStart _ => some .starting
  | _ => none

/-- The phases of a role that can be read one after the other, from a first copy on. -/
def phasesRead (role : Role) (first : Roster) (sights : List Sight) : List Phase :=
  (first :: copies sights).map fun copy => (copy.slot role).phase

namespace Replace

/-- The phases in which the container of a slot is removed, if it `held` one. -/
def vacating (held : Bool) : List Phase := if held then [.stopping, .stopped, .pruning] else []

/-- The phases that a replace entered when it came to a step. -/
def entered (held : Bool) : ReplaceStep → List Phase
  | .terminate | .confirmExit => [.stopping]
  | .prune | .confirmPrune => [.stopping, .stopped, .pruning]
  | .ensureImage => vacating held
  | .start | .confirmStart => vacating held ++ [.imageEnsured, .starting]

/-- The phases that a replace shows: those it entered until it failed or succeeded, and the phase
that tells which. -/
def course (held : Bool) (image : String) : Replaced → List Phase
  | .ok _ => entered held .confirmStart ++ [.running image]
  | .error e => entered held e.step ++ [.failed e.step]

/-- What can be seen of a replace that began with a roster and its copy the same. -/
structure InSight (settings : Settings) (role : Role) (refs : ImageRefs) (roster : Roster)
    (result : Replaced) (sights : List Sight) : Prop where
  /-- The calls are those of an ending: after the step that failed there is none. -/
  ends : ∃ slot, Ends settings role refs (roster.slot role) (exchanges sights) result slot
  phases : phasesRead role roster sights = (roster.slot role).phase ::
    course (roster.slot role).container.isSome (refs.of role) result
  during : ∀ exchange copy phase, .called exchange copy ∈ sights →
    phaseDuring exchange.call = some phase → (copy.slot role).phase = phase
  /-- The new container is shown running only when its start was confirmed. -/
  running : ∀ before copy after image, sights = before ++ .showed copy :: after →
    (copy.slot role).phase = .running image → image = refs.of role ∧ ∃ handle,
      ⟨.start (role.descriptor settings (settings.usedImage (refs.of role)) refs), .ok handle⟩ ∈
        exchanges before ∧
      ⟨.awaitStart handle.id, .ok ()⟩ ∈ exchanges before
  other : ∀ sight ∈ sights, sight.copy.slot role.other = roster.slot role.other

/-- What was seen of a replace that entered some phases so far, after `first` could be read. -/
structure Trail (role : Role) (first : Roster) (phases : List Phase) (s : Seen) : Prop where
  shown : (copies s.sights).map (fun copy => (copy.slot role).phase) = phases
  visible : (s.lastKnown.slot role).phase = phases.getLastD (first.slot role).phase
  during : ∀ exchange copy phase, .called exchange copy ∈ s.sights →
    phaseDuring exchange.call = some phase → (copy.slot role).phase = phase
  other : s.lastKnown.slot role.other = first.slot role.other
  others : ∀ sight ∈ s.sights, sight.copy.slot role.other = first.slot role.other

/-! ## The trail of each request -/

section Trail

variable {settings : Settings} {role : Role} {refs : ImageRefs} {first : Roster}
  {phases : List Phase} {slot : Slot} {s : Seen} (held : Bool)

/-- Nothing was seen yet. -/
theorem Trail.start (role : Role) (hsights : s.sights = []) : Trail role s.lastKnown [] s where
  shown := by
    rw [hsights]
    rfl
  visible := rfl
  during := by
    intro exchange copy phase hmem
    rw [hsights] at hmem
    cases hmem
  other := rfl
  others := by
    intro sight hmem
    rw [hsights] at hmem
    cases hmem

/-- What is set is not seen until it is shown. -/
theorem Trail.set (h : Trail role first phases s) (slot : Slot) :
    Trail role first phases (s.set role slot) :=
  ⟨h.shown, h.visible, h.during, h.other, h.others⟩

/-- A call is seen in the phase that was entered last. -/
theorem Trail.called (h : Trail role first phases s) {exchange : Exchange}
    (hduring : ∀ phase, phaseDuring exchange.call = some phase →
      phases.getLastD (first.slot role).phase = phase) :
    Trail role first phases (s.called exchange) where
  shown := by
    show (copies (s.sights ++ [.called exchange s.lastKnown])).map _ = phases
    rw [copies_append, copies_called, List.append_nil, h.shown]
  visible := h.visible
  during := by
    intro other copy phase hmem hphase
    rcases List.mem_append.1 hmem with hmem | hmem
    · exact h.during other copy phase hmem hphase
    · obtain ⟨rfl, rfl⟩ := Sight.called.inj (List.mem_singleton.1 hmem)
      rw [h.visible]
      exact hduring phase hphase
  other := h.other
  others := by
    intro sight hmem
    rcases List.mem_append.1 hmem with hmem | hmem
    · exact h.others sight hmem
    · rw [List.mem_singleton.1 hmem]
      exact h.other

/-- A slot that is shown adds its phase to the trail. -/
theorem Trail.published (h : Trail role first phases s) :
    Trail role first (phases ++ [(s.roster.slot role).phase]) (s.published role) := by
  have hother : (s.published role).lastKnown.slot role.other = first.slot role.other := by
    show (s.lastKnown.put role _).slot role.other = _
    rw [Roster.slot_put_other]
    exact h.other
  refine ⟨?_, ?_, ?_, hother, ?_⟩
  · show (copies (s.sights ++ [.showed (s.lastKnown.put role (s.roster.slot role))])).map _ = _
    rw [copies_append, copies_showed, List.map_append, h.shown, List.map_singleton,
      Roster.slot_put_self]
  · show ((s.lastKnown.put role (s.roster.slot role)).slot role).phase = _
    rw [Roster.slot_put_self, List.getLastD_concat]
  · intro exchange copy phase hmem hphase
    rcases List.mem_append.1 hmem with hmem | hmem
    · exact h.during exchange copy phase hmem hphase
    · cases List.mem_singleton.1 hmem
  · intro sight hmem
    rcases List.mem_append.1 hmem with hmem | hmem
    · exact h.others sight hmem
    · rw [List.mem_singleton.1 hmem]
      exact hother

/-! ## The trail of each part -/

theorem Trail.ensures_enter (h : Trail role first phases s) (slot : Slot) (phase : Phase) :
    (enter role slot phase).Ensures Seen.rule (fun _ s' =>
      Trail role first (phases ++ [phase]) s') s := by
  simp only [enter, ensures_bind, sees_log, sees_setSlot, sees_publish, pure_eq, ensures_done]
  have hpublished := (h.set { slot with phase }).published
  have hphase : ((s.set role { slot with phase }).roster.slot role).phase = phase := by
    show ((s.roster.put role { slot with phase }).slot role).phase = phase
    rw [Roster.slot_put_self]
  rwa [hphase] at hpublished

/-- What a part of a replace leaves behind: the trail of its phases where it succeeded, else that of
the phases up to the step that failed. -/
def Leaves (role : Role) (first : Roster) (held : Bool) (phases : List Phase) {α : Type}
    (result : Except ReplaceError α) (s : Seen) : Prop :=
  match result with
  | .ok _ => Trail role first phases s
  | .error e => Trail role first (entered held e.step) s

/-- A call that may fail a replace leaves the phase as it is. -/
theorem Trail.ensures_callAt (h : Trail role first phases s)
    (fault : Container.Fault → ReplaceError) (c : Container.Call)
    (hduring : ∀ phase, phaseDuring c = some phase →
      phases.getLastD (first.slot role).phase = phase)
    (hstep : ∀ cause, entered held (fault cause).step = phases) :
    (callAt fault c).run.Ensures Seen.rule (Leaves role first held phases) s := by
  unfold callAt
  rw [ExceptT.run_mk, ensures_bind, sees_call]
  rintro (cause | value)
  · show Trail role first (entered held (fault cause).step) _
    rw [hstep cause]
    exact h.called hduring
  · exact h.called hduring

/-- The signal to an old container is sent while it is shown stopping. -/
theorem Trail.ensures_signal (h : Trail role first [.stopping] s) (old : Handle) :
    (signal role old).Ensures Seen.rule (fun _ s' => Trail role first [.stopping] s') s := by
  unfold signal
  simp only [ensures_bind, sees_call (c := .terminate _)]
  intro signalled
  have hcalled : Trail role first [.stopping] (s.called ⟨.terminate old.id, signalled⟩) := by
    apply h.called
    rintro phase ⟨⟩
    rfl
  cases signalled with
  | ok => exact hcalled
  | error cause => exact hcalled

theorem Trail.ensures_remove (h : Trail role first [.stopping] s) (image : String) (slot : Slot)
    (old : Handle) :
    (remove role image slot old).run.Ensures Seen.rule
      (Leaves role first held [.stopping, .stopped, .pruning]) s := by
  unfold remove
  rw [ensures_run_bind]
  have hexit := h.ensures_callAt held (.mk role .confirmExit image (some old.id))
    (.awaitExit old.id)
    (by rintro phase ⟨⟩; rfl) (fun _ => rfl)
  refine hexit.mono Seen.rule_monotone ?_
  rintro (e | ⟨⟩) s₁ h₁
  · exact h₁
  simp only [ensures_run_bind, ensures_run_lift]
  refine (h₁.ensures_enter _ .stopped).mono Seen.rule_monotone ?_
  intro slot₂ s₂ h₂
  refine (h₂.ensures_enter _ .pruning).mono Seen.rule_monotone ?_
  intro slot₃ s₃ h₃
  have hprune := h₃.ensures_callAt held (.mk role .prune image (some old.id)) .prune
    (by rintro phase ⟨⟩; rfl) (fun _ => rfl)
  refine hprune.mono Seen.rule_monotone ?_
  rintro (e | ⟨⟩) s₄ h₄
  · exact h₄
  have hconfirm := Trail.ensures_callAt held h₄ (.mk role .confirmPrune image (some old.id))
    (.awaitPrune old.id)
    (by rintro phase ⟨⟩; rfl) (fun _ => rfl)
  refine hconfirm.mono Seen.rule_monotone ?_
  rintro (e | ⟨⟩) s₅ h₅
  · exact h₅
  · exact h₅

theorem Trail.ensures_teardown (h : Trail role first [] s) (image : String) (slot : Slot)
    (old : Handle) :
    (teardown role image slot old).run.Ensures Seen.rule
      (Leaves role first true (vacating true)) s := by
  rw [teardown_eq]
  simp only [ensures_run_bind, ensures_run_lift]
  refine (h.ensures_enter slot .stopping).mono Seen.rule_monotone ?_
  intro slot₁ s₁ h₁
  refine (h₁.ensures_signal old).mono Seen.rule_monotone ?_
  intro _ s₂ h₂
  exact h₂.ensures_remove true image slot₁ old

/-- Whether the image is there or not, nothing is shown of it yet. -/
theorem Trail.ensures_ensureImage (h : Trail role first phases s) (image : String) :
    (ensureImage settings role image).Ensures Seen.rule (fun _ s' =>
      Trail role first phases s') s := by
  have hused : ∀ used, (ensureUsed role used).Ensures Seen.rule (fun _ s' =>
      Trail role first phases s') s := by
    intro used
    unfold ensureUsed
    simp only [ensures_bind, sees_call (c := .ensureImage _ _)]
    intro answer
    have hcalled : Trail role first phases (s.called ⟨.ensureImage role.name used, answer⟩) := by
      apply h.called
      rintro phase ⟨⟩
    cases answer with
    | ok => exact hcalled
    | error cause => exact hcalled
  rw [ensureImage_eq]
  cases resolve settings image with
  | ok used => exact hused used
  | error fault => exact hused image

theorem Trail.ensures_launch (h : Trail role first (vacating held ++ [.imageEnsured]) s)
    (used : String) :
    (launch settings role refs slot used).run.Ensures Seen.rule
      (Leaves role first held (entered held .confirmStart)) s := by
  have hlast : (entered held .confirmStart).getLastD (first.slot role).phase = .starting := by
    cases held <;> rfl
  unfold launch
  simp only [ensures_run_bind, ensures_run_lift]
  refine (h.ensures_enter slot .starting).mono Seen.rule_monotone ?_
  intro slot₁ s₁ h₁
  have hstarting : Trail role first (entered held .confirmStart) s₁ := by
    rwa [List.append_assoc] at h₁
  have hstart := hstarting.ensures_callAt held (.mk role .start (refs.of role) none)
    (.start (role.descriptor settings used refs))
    (by rintro phase ⟨⟩; exact hlast) (fun _ => rfl)
  refine hstart.mono Seen.rule_monotone ?_
  rintro (e | handle) s₂ h₂
  · exact h₂
  simp only [sees_setSlot]
  have hset := Trail.set h₂ { slot₁ with container := some handle }
  have hconfirm := hset.ensures_callAt held
    (.mk role .confirmStart (refs.of role) (some handle.id)) (.awaitStart handle.id)
    (by rintro phase ⟨⟩; exact hlast) (fun _ => rfl)
  refine hconfirm.mono Seen.rule_monotone ?_
  rintro (e | ⟨⟩) s₃ h₃
  · exact h₃
  · -- The slot is set to running, which is not shown before the end.
    exact Trail.set h₃ _

theorem Trail.ensures_fill (h : Trail role first (vacating held) s) (slot : Slot) :
    (fill settings role refs slot).run.Ensures Seen.rule
      (Leaves role first held (entered held .confirmStart)) s := by
  unfold fill
  rw [ensures_run_bind, ExceptT.run_mk, ensures_bind]
  refine (h.ensures_ensureImage (refs.of role)).mono Seen.rule_monotone ?_
  rintro (cause | used) s₁ h₁
  · exact h₁
  simp only [pure_eq, ensures_done, ensures_run_bind, ensures_run_lift]
  refine (h₁.ensures_enter slot .imageEnsured).mono Seen.rule_monotone ?_
  intro slot₂ s₂ h₂
  exact h₂.ensures_launch held used

/-- The steps of a replace leave the trail of the phases they entered. -/
theorem Trail.ensures_steps (settings : Settings) (refs : ImageRefs)
    (h : Trail role first [] s) (slot : Slot) :
    (steps settings role refs slot).run.Ensures Seen.rule
      (Leaves role first slot.container.isSome
        (entered slot.container.isSome .confirmStart)) s := by
  rw [steps_eq]
  cases slot.container with
  | none => exact Trail.ensures_fill false h slot
  | some old =>
    rw [ensures_run_bind]
    refine (h.ensures_teardown (refs.of role) slot old).mono Seen.rule_monotone ?_
    rintro (e | slot₁) s₁ h₁
    · exact h₁
    · exact Trail.ensures_fill true h₁ slot₁

end Trail

end Replace

/-! ## A replace as a whole -/

section Endings

variable {settings : Settings} {role : Role} {refs : ImageRefs} {slot slot' : Slot}
  {calls : List Exchange} {result : Replaced}

/-- The phases that were entered and the phase of the ending are the course of a replace. -/
theorem Ends.course (h : Ends settings role refs slot calls result slot') (held : Bool) :
    Replace.course held (refs.of role) result =
      (match result with
      | .ok _ => Replace.entered held .confirmStart
      | .error e => Replace.entered held e.step) ++ [slot'.phase] := by
  cases h with
  | _ => rfl

/-- Only a replace whose new container was started and confirmed ends running. -/
theorem Ends.started_of_running (h : Ends settings role refs slot calls result slot')
    {image : String} (hrunning : slot'.phase = .running image) :
    image = refs.of role ∧ ∃ handle,
      ⟨.start (role.descriptor settings (settings.usedImage (refs.of role)) refs), .ok handle⟩ ∈
        calls ∧
      ⟨.awaitStart handle.id, .ok ()⟩ ∈ calls := by
  cases h with
  | replaced removal handle hremoval =>
    obtain rfl := Phase.running.inj hrunning
    refine ⟨rfl, handle, ?_, ?_⟩
    · exact List.mem_append_right _ (List.mem_cons_of_mem _ List.mem_cons_self)
    · exact List.mem_append_right _
        (List.mem_cons_of_mem _ (List.mem_cons_of_mem _ List.mem_cons_self))
  | _ => cases hrunning

end Endings

namespace Replace

variable {settings : Settings} {role : Role} {refs : ImageRefs} {result : Replaced} {s s' : Seen}

/-- No role is shown running before the end. -/
theorem running_notMem_entered (held : Bool) (step : ReplaceStep) (image : String) :
    Phase.running image ∉ entered held step := by
  cases held <;> cases step <;> simp [entered, vacating]

/-- What is shown last completes the course of a replace. -/
theorem InSight.of_trail {first : Roster} {calls : List Exchange} {slot : Slot}
    (hleaves : Leaves role first (first.slot role).container.isSome
      (entered (first.slot role).container.isSome .confirmStart) result s)
    (hcalls : exchanges s.sights = calls)
    (hends : Ends settings role refs (first.slot role) calls result slot)
    (hslot : s.roster.slot role = slot) :
    InSight settings role refs first result (s.published role).sights := by
  -- The phases until the last one are those that were entered, and nothing runs in any of them.
  obtain ⟨phases, htrail, hcourse, hnot⟩ : ∃ phases, Trail role first phases s ∧
      course (first.slot role).container.isSome (refs.of role) result = phases ++ [slot.phase] ∧
      ∀ image, Phase.running image ∉ phases := by
    have hcourse := hends.course (first.slot role).container.isSome
    cases result with
    | ok outcome => exact ⟨_, hleaves, hcourse, running_notMem_entered _ _⟩
    | error e => exact ⟨_, hleaves, hcourse, running_notMem_entered _ _⟩
  have hpublished := htrail.published
  rw [hslot] at hpublished
  constructor
  · refine ⟨slot, ?_⟩
    show Ends settings role refs (first.slot role) (exchanges (s.sights ++ [.showed _])) result slot
    rw [exchanges_append, exchanges_showed, List.append_nil, hcalls]
    exact hends
  · rw [hcourse, ← hpublished.shown]
    rfl
  · exact hpublished.during
  · intro before copy after image hsights hrunning
    rcases List.eq_nil_or_concat after with rfl | ⟨after, last, rfl⟩
    · -- It is the last that is shown, so all calls were made before it.
      obtain ⟨rfl, hlast⟩ := List.append_inj' hsights rfl
      obtain rfl := Sight.showed.inj (List.cons.inj hlast).1
      rw [Roster.slot_put_self, hslot] at hrunning
      rw [hcalls]
      exact hends.started_of_running hrunning
    · -- Else it was shown while the steps went on.
      rw [List.concat_eq_append, ← List.cons_append, ← List.append_assoc] at hsights
      obtain ⟨hbefore, -⟩ := List.append_inj' hsights rfl
      have hmem : copy ∈ copies s.sights := by
        rw [mem_copies, hbefore]
        exact List.mem_append_right _ List.mem_cons_self
      have hphase : Phase.running image ∈ phases := by
        rw [← htrail.shown, ← hrunning]
        exact List.mem_map_of_mem hmem
      exact absurd hphase (hnot image)
  · exact hpublished.others

/-- A replace that begins with an up-to-date copy is seen as it should be. -/
theorem sees_replaceLocked (settings : Settings) (role : Role) (refs : ImageRefs)
    (hsights : s.sights = []) (hcopy : s.lastKnown = s.roster) :
    (replaceLocked settings role refs).Ensures Seen.rule (fun result s' =>
      InSight settings role refs s.roster result s'.sights) s := by
  have hsteps := ((Trail.start role hsights).ensures_steps settings refs
    (s.roster.slot role)).and Seen.rule_monotone Seen.rule_conjunctive
    (Seen.ensures_of_account (ensures_steps rfl))
  rw [hcopy] at hsteps
  have hnone : s.account.calls = [] := by
    show exchanges s.sights = []
    rw [hsights]
    rfl
  unfold replaceLocked
  simp only [ensures_bind, sees_slot, sees_log]
  refine hsteps.mono Seen.rule_monotone ?_
  rintro result s₁ ⟨hleaves, slot, copy, calls, haccount, hends⟩
  have hcalls : exchanges s₁.sights = calls := by
    have h := congrArg Account.calls haccount
    rwa [show (s.account.after role slot copy calls).calls = s.account.calls ++ calls from rfl,
      hnone, List.nil_append] at h
  have hroster : s₁.roster.slot role = slot := by
    have h := congrArg (fun account : Account => account.roster.slot role) haccount
    rwa [Account.slot_after] at h
  cases result with
  | ok outcome =>
    simp only [ensures_bind, sees_publish, pure_eq, ensures_done]
    exact InSight.of_trail hleaves hcalls hends hroster
  | error e =>
    -- After a failure the phase is set before the slot is shown.
    simp only [ensures_bind, sees_slot, sees_setSlot, sees_publish, pure_eq, ensures_done]
    have hset := Trail.set hleaves { s₁.roster.slot role with phase := .failed e.step }
    have hfailed : (s₁.set role { s₁.roster.slot role with phase := .failed e.step }).roster.slot
        role = { slot with phase := .failed e.step } := by
      show (s₁.roster.put role _).slot role = _
      rw [Roster.slot_put_self, hroster]
    exact InSight.of_trail hset hcalls hends hfailed

end Replace

section Worlds

variable {ρ : Type} [Backend ρ]

/-- An update that gives a role an image is seen to take the course of a replace: others read the
old phase, then the phases of the removal if there was a container, then those of the launch, cut
where a step fails and ended by that failure.  Each call is made in its phase, the role is shown
running only when the start of its new container was confirmed, and the other role is shown as it
was. -/
theorem replace_in_sight (settings : Settings) (role : Role) (refs : ImageRefs) (forced : Bool)
    {w : World ρ} (hcopy : w.lastKnown = w.roster)
    (hneeded : forced = true ∨ (w.roster.slot role).image ≠ some (refs.of role)) :
    let update := (Operation.giving role refs forced).transaction settings
    ∃ result, (update.run w).1 = .replaced result ∧
      Replace.InSight settings role refs w.roster result (update.sights w) := by
  intro update
  have hwork : ((Operation.giving role refs forced).work settings).Ensures Seen.rule
      (fun value s' => ∃ result, value = .replaced result ∧
        Replace.InSight settings role refs w.roster result s'.sights) (w.seen []) := by
    have hreplace := Replace.sees_replaceLocked settings role refs (s := w.seen []) rfl hcopy
    cases forced with
    | true =>
      apply ensures_map.2
      apply hreplace.mono Seen.rule_monotone
      intro result s' hsight
      exact ⟨result, rfl, hsight⟩
    | false =>
      have himage : ((w.seen []).roster.slot role).image ≠ some (refs.of role) :=
        hneeded.resolve_left Bool.false_ne_true
      apply ensures_map.2
      unfold compareLocked
      simp only [ensures_bind, sees_slot]
      rw [if_neg himage]
      apply hreplace.mono Seen.rule_monotone
      intro result s' hsight
      exact ⟨result, rfl, hsight⟩
  have hrun := Transaction.ensures_sights [] hwork
  rw [← Operation.run_transaction, ← Operation.sights_transaction] at hrun
  exact hrun

/-- An update of a running supervisor that is started and never confirmed. -/
theorem replace_in_sight_unconfirmed :
    let w := (Sample.launched.moved (.fail .awaitStart)).world
    w.lastKnown = w.roster ∧
      (w.roster.slot .supervisor).image ≠ some ((Sample.refs "sup:v2").of .supervisor) ∧
      let update := (Operation.giving .supervisor (Sample.refs "sup:v2") false).transaction
        developmentSettings
      ∃ result, (update.run w).1 = .replaced result ∧
        Replace.InSight developmentSettings .supervisor (Sample.refs "sup:v2") w.roster result
          (update.sights w) := by
  have himage : ((Sample.launched.moved (.fail .awaitStart)).world.roster.slot
      .supervisor).image ≠ some ((Sample.refs "sup:v2").of .supervisor) := by decide
  exact ⟨rfl, himage, replace_in_sight _ _ _ _ rfl (.inr himage)⟩

end Worlds

end Caretaker.Crew
