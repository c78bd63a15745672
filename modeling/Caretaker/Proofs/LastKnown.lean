import Caretaker.Proofs.Work

/-!
# The copy of the roster while an update goes on

An update brings the copy of the roster up to date each time it moves a slot to another phase.  A
container that was started is recorded in the guarded slot at once, in the phase that the slot is in
already, so until its start is confirmed, or failed, the copy does not tell of it.  In everything
else the copy is behind only between a write and the publication right after it.

Main definitions:

- `Unconfirmed`: rosters that differ in a container whose start is not confirmed.
- `Shows`: what the copy may be behind by when an update makes a request.

Main statements:

- `Operation.shows_work`: an update makes each of its requests with the copy so.
-/

namespace Caretaker.Crew

open Script Transaction

/-! ## How far the copy is behind -/

/-- Whether a guarded roster has a container for a role that its copy does not tell of, and differs
in nothing else. -/
structure Unconfirmed (role : Role) (handle : Handle) (guarded copy : Roster) : Prop where
  guarded : guarded = copy.put role { copy.slot role with container := some handle }
  vacant : (copy.slot role).container = none
  starting : (copy.slot role).phase = .starting

/-- How the copy of a guarded roster may stand when an update is about to make a request. -/
inductive Shows (r : Request) (guarded copy : Roster) : Prop where
  | current (hsame : copy = guarded)
  /-- A slot was written, and is published next. -/
  | publishing (role : Role) (hother : copy.slot role.other = guarded.slot role.other)
      (hnext : r = .publish role)
  /-- A container was started; a call that the update is in waits for the start to be confirmed. -/
  | unconfirmed (role : Role) (handle : Handle) (hslot : Unconfirmed role handle guarded copy)
      (hcall : ∀ c, r = .call c → c = .awaitStart handle.id)

theorem Unconfirmed.other {role : Role} {handle : Handle} {guarded copy : Roster}
    (h : Unconfirmed role handle guarded copy) :
    copy.slot role.other = guarded.slot role.other := by
  rw [h.guarded, Roster.slot_put_other]

/-- How an account goes on when each request is made with the copy as it may stand. -/
def Account.showing : Rule signature Account := fun r s post =>
  Shows r s.roster s.lastKnown ∧ Account.rule r s post

theorem Account.showing_monotone : Account.showing.Monotone := by
  intro r s post post' himp h
  exact ⟨h.1, Account.rule_monotone r s post post' himp h.2⟩

/-! ## The parts of a replace -/

namespace Replace

variable {settings : Settings} {role : Role} {refs : ImageRefs} {slot : Slot} {s : Account}

/-- The copy is up to date again once a phase was entered. -/
theorem shows_enter (h : s.lastKnown = s.roster) (role : Role) (slot : Slot) (phase : Phase) :
    (enter role slot phase).Ensures Account.showing (fun slot' s' =>
      slot' = { slot with phase } ∧ s'.lastKnown = s'.roster ∧
        s'.roster.slot role = { slot with phase }) s := by
  have hpublishing : Shows (.publish role) (s.roster.put role { slot with phase }) s.lastKnown := by
    refine .publishing role ?_ rfl
    rw [Roster.slot_put_other, h]
  refine ⟨.current h, .current h, hpublishing, rfl, ?_, ?_⟩
  · show s.lastKnown.put role ((s.roster.put role { slot with phase }).slot role) = _
    rw [h, Roster.slot_put_self]
    rfl
  · exact Roster.slot_put_self _ _ _

/-- A call leaves the copy as it is. -/
theorem shows_callAt (h : s.lastKnown = s.roster) (fault : Container.Fault → ReplaceError)
    (c : Container.Call) :
    (callAt fault c).run.Ensures Account.showing (fun _ s' =>
      s'.lastKnown = s'.roster ∧ s'.roster = s.roster) s := by
  refine ⟨.current h, fun answer => ?_⟩
  cases answer with
  | ok value => exact ⟨h, rfl⟩
  | error cause => exact ⟨h, rfl⟩

theorem shows_signal (h : s.lastKnown = s.roster) (old : Handle) :
    (signal role old).Ensures Account.showing (fun _ s' => s'.lastKnown = s'.roster) s := by
  refine ⟨.current h, fun answer => ?_⟩
  cases answer with
  | ok => exact ⟨.current h, h⟩
  | error cause => exact ⟨.current h, h⟩

/-- Once a container is removed its slot has none, and the copy is up to date either way. -/
theorem shows_remove (h : s.lastKnown = s.roster) (image : String) (old : Handle) :
    (remove role image slot old).run.Ensures Account.showing (fun result s' =>
      s'.lastKnown = s'.roster ∧ ∀ slot', result = .ok slot' → slot'.container = none) s := by
  unfold remove
  rw [ensures_run_bind]
  refine (shows_callAt h _ _).mono Account.showing_monotone ?_
  rintro (cause | ⟨⟩) s₁ ⟨h₁, -⟩
  · exact ⟨h₁, nofun⟩
  · simp only [ensures_run_bind, ensures_run_lift]
    refine (shows_enter h₁ role _ .stopped).mono Account.showing_monotone ?_
    rintro _ s₂ ⟨rfl, h₂, -⟩
    refine (shows_enter h₂ role _ .pruning).mono Account.showing_monotone ?_
    rintro _ s₃ ⟨rfl, h₃, -⟩
    refine (shows_callAt h₃ _ _).mono Account.showing_monotone ?_
    rintro (cause | ⟨⟩) s₄ ⟨h₄, -⟩
    · exact ⟨h₄, nofun⟩
    · refine (shows_callAt h₄ _ _).mono Account.showing_monotone ?_
      rintro (cause | ⟨⟩) s₅ ⟨h₅, -⟩
      · exact ⟨h₅, nofun⟩
      · refine ⟨h₅, fun slot' hslot => ?_⟩
        cases hslot
        rfl

theorem shows_teardown (h : s.lastKnown = s.roster) (image : String) (old : Handle) :
    (teardown role image slot old).run.Ensures Account.showing (fun result s' =>
      s'.lastKnown = s'.roster ∧ ∀ slot', result = .ok slot' → slot'.container = none) s := by
  rw [teardown_eq]
  simp only [ensures_run_bind, ensures_run_lift]
  refine (shows_enter h role slot .stopping).mono Account.showing_monotone ?_
  rintro _ s₁ ⟨rfl, h₁, -⟩
  refine (shows_signal h₁ old).mono Account.showing_monotone ?_
  intro _ s₂ h₂
  exact shows_remove h₂ image old

theorem shows_ensureImage (h : s.lastKnown = s.roster) (image : String) :
    (ensureImage settings role image).Ensures Account.showing (fun _ s' =>
      s'.lastKnown = s'.roster) s := by
  have hused : ∀ used, (ensureUsed role used).Ensures Account.showing (fun _ s' =>
      s'.lastKnown = s'.roster) s := by
    intro used
    refine ⟨.current h, fun answer => ?_⟩
    cases answer with
    | ok => exact h
    | error cause => exact ⟨.current h, h⟩
  rw [ensureImage_eq]
  cases resolve settings image with
  | ok used => exact hused used
  | error fault => exact ⟨.current h, hused image⟩

/-- How the copy stands when the steps of a replace came to their end and the slot is not published
yet. -/
def Halted (role : Role) (result : Replaced) (s : Account) : Prop :=
  match result with
  | .ok _ => s.lastKnown.slot role.other = s.roster.slot role.other
  | .error _ => s.lastKnown = s.roster ∨ ∃ handle, Unconfirmed role handle s.roster s.lastKnown

theorem shows_launch (h : s.lastKnown = s.roster) (hslot : slot.container = none)
    (used : String) :
    (launch settings role refs slot used).run.Ensures Account.showing (Halted role) s := by
  unfold launch
  simp only [ensures_run_bind, ensures_run_lift]
  refine (shows_enter h role slot .starting).mono Account.showing_monotone ?_
  rintro _ s₁ ⟨rfl, h₁, hstarting⟩
  refine (shows_callAt h₁ _ _).mono Account.showing_monotone ?_
  rintro (cause | handle) s₂ ⟨h₂, hroster⟩
  · exact .inl h₂
  · -- the container is recorded, and its start is to be confirmed
    have hcopy : s₂.lastKnown.slot role = { slot with phase := .starting } := by
      rw [h₂, hroster, hstarting]
    let started := s₂.set role { slot with phase := .starting, container := some handle }
    have hstarted : Unconfirmed role handle started.roster started.lastKnown := by
      refine ⟨?_, ?_, ?_⟩
      · show s₂.roster.put role _ = s₂.lastKnown.put role { s₂.lastKnown.slot role with
          container := some handle }
        rw [hcopy, h₂]
      · show (s₂.lastKnown.slot role).container = none
        rw [hcopy]
        exact hslot
      · show (s₂.lastKnown.slot role).phase = .starting
        rw [hcopy]
    have hshows : ∀ r : Request, (∀ c, r = .call c → c = .awaitStart handle.id) →
        Shows r started.roster started.lastKnown :=
      fun r hcall => .unconfirmed role handle hstarted hcall
    refine ⟨.current h₂, hshows _ fun c hc => (Request.call.inj hc).symm, fun answer => ?_⟩
    cases answer with
    | error cause => exact .inr ⟨handle, hstarted⟩
    | ok =>
      have hquiet : ∀ r : Request, (∀ c, r ≠ .call c) → Shows r started.roster started.lastKnown :=
        fun r hr => hshows r fun c hc => absurd hc (hr c)
      refine ⟨hquiet _ fun c hc => ?_, hquiet _ fun c hc => ?_, ?_⟩
      · cases hc
      · cases hc
      show s₂.lastKnown.slot role.other = (started.roster.put role _).slot role.other
      rw [Roster.slot_put_other]
      exact hstarted.other

theorem shows_steps (h : s.lastKnown = s.roster) :
    (steps settings role refs slot).run.Ensures Account.showing (Halted role) s := by
  have hfill : ∀ {slot : Slot} {s : Account}, s.lastKnown = s.roster → slot.container = none →
      (fill settings role refs slot).run.Ensures Account.showing (Halted role) s := by
    intro slot s h hslot
    unfold fill
    rw [ensures_run_bind, ExceptT.run_mk, ensures_bind]
    refine (shows_ensureImage h (refs.of role)).mono Account.showing_monotone ?_
    rintro (cause | used) s₁ h₁
    · exact .inl h₁
    · show Ensures Account.showing (Halted role) (ExceptT.run (do
        let slot ← enter role slot .imageEnsured
        launch settings role refs slot used)) s₁
      simp only [ensures_run_bind, ensures_run_lift]
      refine (shows_enter h₁ role slot .imageEnsured).mono Account.showing_monotone ?_
      rintro _ s₂ ⟨rfl, h₂, -⟩
      exact shows_launch h₂ hslot used
  rw [steps_eq]
  cases hold : slot.container with
  | none => exact hfill h hold
  | some old =>
    rw [ensures_run_bind]
    refine (shows_teardown h (refs.of role) old).mono Account.showing_monotone ?_
    rintro (e | slot') s₁ ⟨h₁, hslot⟩
    · exact .inl h₁
    · exact hfill h₁ (hslot slot' rfl)

end Replace

/-! ## Updates -/

section Updates

variable {settings : Settings} {role : Role} {refs : ImageRefs} {s : Account}

/-- Who publishes the only slot that differs has brought the copy up to date. -/
theorem Account.lastKnown_published (h : s.lastKnown.slot role.other = s.roster.slot role.other) :
    (s.published role).lastKnown = (s.published role).roster := by
  refine Roster.ext_slot fun other => ?_
  by_cases heq : other = role
  · subst heq
    exact Roster.slot_put_self _ _ _
  · have hother : other = role.other := by
      revert heq
      cases other <;> cases role <;> simp [Role.other]
    subst hother
    exact (Roster.slot_put_other _ _ _).trans h

/-- A replace begins and ends with the copy up to date. -/
theorem shows_replaceLocked (h : s.lastKnown = s.roster) :
    (replaceLocked settings role refs).Ensures Account.showing (fun _ s' =>
      s'.lastKnown = s'.roster) s := by
  unfold replaceLocked
  rw [ensures_bind]
  refine ⟨.current h, .current h, ?_⟩
  show Ensures Account.showing _
    ((Replace.steps settings role refs (s.roster.slot role)).run >>= _) s
  rw [ensures_bind]
  refine (Replace.shows_steps h).mono Account.showing_monotone ?_
  rintro (e | outcome) s₁ hhalted
  · -- the phase of a failure is set before the slot is published
    have hshows : ∀ r : Request, (∀ c, r ≠ .call c) → Shows r s₁.roster s₁.lastKnown := by
      intro r hr
      rcases hhalted with hsame | ⟨handle, hslot⟩
      · exact .current hsame
      · exact .unconfirmed role handle hslot fun c hc => absurd hc (hr c)
    have hother : s₁.lastKnown.slot role.other =
        (s₁.roster.put role { s₁.roster.slot role with phase := .failed e.step }).slot
          role.other := by
      rw [Roster.slot_put_other]
      rcases hhalted with hsame | ⟨handle, hslot⟩
      · rw [hsame]
      · exact hslot.other
    refine ⟨hshows _ nofun, hshows _ nofun, .publishing role hother rfl, ?_⟩
    exact Account.lastKnown_published hother
  · exact ⟨.publishing role hhalted rfl, Account.lastKnown_published hhalted⟩

theorem shows_compareLocked (h : s.lastKnown = s.roster) :
    (compareLocked settings role refs).Ensures Account.showing (fun _ s' =>
      s'.lastKnown = s'.roster) s := by
  unfold compareLocked
  rw [ensures_bind]
  refine ⟨.current h, ?_⟩
  show Ensures Account.showing _ (if (s.roster.slot role).image = _ then _ else _) s
  split
  · exact ⟨.current h, h⟩
  · exact shows_replaceLocked h

theorem shows_applyLocked {roles : List Role} (h : s.lastKnown = s.roster) :
    (applyLocked settings refs roles).Ensures Account.showing (fun _ s' =>
      s'.lastKnown = s'.roster) s := by
  induction roles generalizing s with
  | nil => exact h
  | cons role roles ih =>
    simp only [applyLocked, ensures_bind]
    refine (shows_compareLocked h).mono Account.showing_monotone ?_
    intro result s₁ h₁
    split
    · exact h₁
    · rw [ensures_bind]
      refine (ih h₁).mono Account.showing_monotone ?_
      intro updates s₂ h₂
      exact h₂

/-- An update begins and ends with the copy up to date, and makes each of its requests with the copy
as it may stand. -/
theorem Operation.shows_work {op : Operation} (hop : op.isUpdate = true)
    (h : s.lastKnown = s.roster) :
    (op.work settings).Ensures Account.showing (fun _ s' => s'.lastKnown = s'.roster) s := by
  cases op with
  | replace role refs => exact ensures_map.2 (shows_replaceLocked h)
  | replaceIfChanged role refs => exact ensures_map.2 (shows_compareLocked h)
  | apply refs roles => exact ensures_map.2 (shows_applyLocked h)
  | keepAlive => cases hop
  | stopAll => cases hop
  | roleStatuses => cases hop
  | snapshot => cases hop

end Updates

end Caretaker.Crew
