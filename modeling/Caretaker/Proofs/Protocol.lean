import Mathlib.Data.List.Forall2
import Caretaker.Proofs.Alone

/-!
# The protocol of a replace

The calls of a replace follow a plan: seven calls where a container has to go first, three where
there is none.  Each call belongs to a step.  The first call that fails ends the replace with the
error of its step, except for the signal to the old container, whose failure is passed over.

The backend here is a rehearsal.  Its answers are laid down before the replace begins, so that each
call can be made to succeed or to fail, whatever was called before it.

Main statements:

- `Ends.follows`: each ending of a replace follows the plan.
- `replace_follows_plan`: a replace makes the calls of the plan up to the first that fails, and the
  result, the phase and the recorded image are those of that step.
-/

namespace Caretaker.Crew

open Container (Backend Call)
open Script Transaction

/-! ## Backends with given answers -/

/-- A backend whose answers are given by what was called before.  It remembers every call. -/
structure Rehearsal where
  answers : List Exchange → (c : Call) → c.Answer
  /-- The calls with their answers, the first one first. -/
  calls : List Exchange := []

namespace Rehearsal

instance : Backend Rehearsal where
  perform c b :=
    let answer := b.answers b.calls c
    { answer, state := { b with calls := b.calls ++ [⟨c, answer⟩] } }

/-- A rehearsal remembers the calls of an account, which it answered as it had to. -/
theorem recorded {b b' : Rehearsal} {calls : List Exchange}
    (h : Performed (fun _ _ => False) b calls b') :
    b'.calls = b.calls ++ calls ∧ b'.answers = b.answers ∧
      ∀ before exchange, before ++ [exchange] <+: calls →
        exchange.answer = b.answers (b.calls ++ before) exchange.call := by
  induction h with
  | start =>
    refine ⟨(List.append_nil _).symm, rfl, fun before exchange hprefix => ?_⟩
    have hnil := List.prefix_nil.1 hprefix
    simp at hnil
  | moved _ hmove => exact hmove.elim
  | @called calls b₁ c _ ih =>
    obtain ⟨hcalls, hanswers, hgiven⟩ := ih
    refine ⟨?_, hanswers, fun before exchange hprefix => ?_⟩
    · rw [← List.append_assoc, ← hcalls]
      rfl
    · rcases List.prefix_concat_iff.1 hprefix with hlast | hearlier
      · -- The last call: the backend was asked after all the calls before it.
        obtain ⟨rfl, hexchange⟩ := List.append_inj' hlast rfl
        obtain rfl := List.singleton_inj.1 hexchange
        rw [← hcalls, ← hanswers]
        rfl
      · exact hgiven before exchange hearlier

end Rehearsal

/-! ## The plan -/

namespace Replace

/-- The calls that remove the container of a slot, each with its step. -/
def removalPlan : Option Handle → List (ReplaceStep × Call)
  | none => []
  | some old =>
    [(.terminate, .terminate old.id), (.confirmExit, .awaitExit old.id), (.prune, .prune),
      (.confirmPrune, .awaitPrune old.id)]

/-- The calls that bring up a container, each with its step.  The handle `fresh` is the one that the
start gives. -/
def launchPlan (settings : Settings) (role : Role) (refs : ImageRefs) (fresh : Handle) :
    List (ReplaceStep × Call) :=
  let used := settings.usedImage (refs.of role)
  [(.ensureImage, .ensureImage role.name used),
    (.start, .start (role.descriptor settings used refs)),
    (.confirmStart, .awaitStart fresh.id)]

/-- The calls of a replace, each with its step. -/
def plan (settings : Settings) (role : Role) (refs : ImageRefs) (slot : Slot) (fresh : Handle) :
    List (ReplaceStep × Call) :=
  removalPlan slot.container ++ launchPlan settings role refs fresh

/-- The container that a step is about. -/
def concerned (slot : Slot) (fresh : Handle) : ReplaceStep → Option Handle
  | .terminate | .confirmExit | .prune | .confirmPrune => slot.container
  | .ensureImage | .start => none
  | .confirmStart => some fresh

/-- The container that is recorded after a step failed. -/
def recorded (slot : Slot) (fresh : Handle) : ReplaceStep → Option Handle
  | .terminate | .confirmExit => slot.container
  | .prune | .confirmPrune | .ensureImage | .start => none
  | .confirmStart => some fresh

/-- Whether a call was made as planned and the replace goes on after it. -/
def Passes (planned : ReplaceStep × Call) (exchange : Exchange) : Prop :=
  exchange.call = planned.2 ∧
    (planned.1 = .terminate ∨ ∃ value, exchange.answer = .ok value)

/-- How a replace follows its plan: the calls that were made, the result, and the slot after it. -/
inductive Follows (settings : Settings) (role : Role) (refs : ImageRefs) (slot : Slot)
    (fresh : Handle) : List Exchange → Replaced → Slot → Prop where
  /-- Every call of the plan is made. -/
  | completed {calls : List Exchange}
      (hcalls : List.Forall₂ Passes (plan settings role refs slot fresh) calls) :
      Follows settings role refs slot fresh calls (.ok (.replaced (refs.of role) fresh.id))
        { image := some (refs.of role), container := some fresh
          phase := .running (refs.of role) }
  /-- A call fails, and is the last one. -/
  | failed {before : List (ReplaceStep × Call)} {calls : List Exchange}
      (step : ReplaceStep) (call : Call) (cause : Container.Fault)
      (hplan : before ++ [(step, call)] <+: plan settings role refs slot fresh)
      (hcalls : List.Forall₂ Passes before calls) (hstep : step ≠ .terminate) :
      Follows settings role refs slot fresh (calls ++ [⟨call, .error cause⟩])
        (.error
          ⟨role, step, refs.of role, (concerned slot fresh step).map (·.id), cause⟩)
        { slot with container := recorded slot fresh step, phase := .failed step }

/-- Whether the handles that starts gave are `fresh`. -/
def Gives (fresh : Handle) (calls : List Exchange) : Prop :=
  ∀ (descriptor : Descriptor) (handle : Handle), ⟨.start descriptor, .ok handle⟩ ∈ calls →
    handle = fresh

end Replace

/-! ## Endings follow the plan -/

section Endings

open Replace

variable {settings : Settings} {role : Role} {refs : ImageRefs} {slot slot' : Slot}
  {fresh : Handle} {calls : List Exchange} {result : Replaced}

theorem Replace.passes_ok (step : ReplaceStep) (c : Call) (value : c.Value) :
    Passes (step, c) ⟨c, .ok value⟩ := ⟨rfl, .inr ⟨value, rfl⟩⟩

/-- The signal may fail. -/
theorem Replace.passes_terminate (id : String) (signalled : Except Container.Fault Unit) :
    Passes (.terminate, .terminate id) ⟨.terminate id, signalled⟩ := ⟨rfl, .inl rfl⟩

/-- A container that is removed is removed by the plan. -/
theorem Removes.passes {container : Option Handle} {removal : List Exchange}
    (h : Removes container removal) : List.Forall₂ Passes (removalPlan container) removal := by
  cases h with
  | nothing => exact .nil
  | removed old signalled =>
    refine .cons (passes_terminate _ _) ?_
    refine .cons (passes_ok _ _ _) (.cons (passes_ok _ _ _) ?_)
    exact .cons (passes_ok _ _ _) .nil

/-- None of the calls that remove a container is a start. -/
theorem Removes.gives {container : Option Handle} {removal rest : List Exchange}
    (h : Removes container removal) (hrest : Gives fresh rest) : Gives fresh (removal ++ rest) := by
  intro descriptor handle hmem
  rcases List.mem_append.1 hmem with hmem | hmem
  · cases h with
    | nothing => cases hmem
    | removed old signalled => simp at hmem
  · exact hrest descriptor handle hmem

/-- A call of the plan that fails ends the replace as the plan says. -/
theorem Replace.Follows.of_failed (step : ReplaceStep) (call : Call)
    {before : List (ReplaceStep × Call)} {done : List Exchange} {cause : Container.Fault}
    {containerId : Option String}
    (hplan : before ++ [(step, call)] <+: plan settings role refs slot fresh)
    (hdone : List.Forall₂ Passes before done) (hstep : step ≠ .terminate)
    (hcalls : calls = done ++ [⟨call, .error cause⟩])
    (hid : containerId = (concerned slot fresh step).map (·.id))
    (hslot : slot' = { slot with container := recorded slot fresh step, phase := .failed step }) :
    Follows settings role refs slot fresh calls
      (.error ⟨role, step, refs.of role, containerId, cause⟩) slot' := by
  subst hcalls hid hslot
  exact .failed step call cause hplan hdone hstep

/-- Each ending of a replace follows the plan. -/
theorem Ends.follows (h : Ends settings role refs slot calls result slot') :
    ∃ fresh, Gives fresh calls ∧ Follows settings role refs slot fresh calls result slot' := by
  let used := settings.usedImage (refs.of role)
  let descriptor := role.descriptor settings used refs
  -- Any handle will do where none was given.
  let nobody : Handle := ⟨"", "", {}⟩
  cases h with
  | exitUnconfirmed old signalled cause hold =>
    have hdone : List.Forall₂ Passes [(.terminate, .terminate old.id)]
        [⟨.terminate old.id, signalled⟩] := .cons (passes_terminate _ _) .nil
    refine ⟨nobody, by simp [Gives], .of_failed .confirmExit (.awaitExit old.id) ?_ hdone
      (by decide) rfl ?_ rfl⟩
    · rw [plan, hold]
      exact ⟨_, rfl⟩
    · rw [concerned, hold]
      rfl
  | pruneFailed old signalled cause hold =>
    have hdone : List.Forall₂ Passes
        [(.terminate, .terminate old.id), (.confirmExit, .awaitExit old.id)]
        [⟨.terminate old.id, signalled⟩, ⟨.awaitExit old.id, .ok ()⟩] :=
      .cons (passes_terminate _ _) (.cons (passes_ok _ _ _) .nil)
    refine ⟨nobody, by simp [Gives], .of_failed .prune .prune ?_ hdone (by decide) rfl ?_ rfl⟩
    · rw [plan, hold]
      exact ⟨_, rfl⟩
    · rw [concerned, hold]
      rfl
  | removalUnconfirmed old signalled cause hold =>
    have hdone : List.Forall₂ Passes
        [(.terminate, .terminate old.id), (.confirmExit, .awaitExit old.id), (.prune, .prune)]
        [⟨.terminate old.id, signalled⟩, ⟨.awaitExit old.id, .ok ()⟩, ⟨.prune, .ok ()⟩] :=
      .cons (passes_terminate _ _) (.cons (passes_ok _ _ _) (.cons (passes_ok _ _ _) .nil))
    refine ⟨nobody, by simp [Gives], .of_failed .confirmPrune (.awaitPrune old.id) ?_ hdone
      (by decide) rfl ?_ rfl⟩
    · rw [plan, hold]
      exact ⟨_, rfl⟩
    · rw [concerned, hold]
      rfl
  | imageMissing removal cause hremoval =>
    refine ⟨nobody, hremoval.gives (by simp [Gives]), .of_failed .ensureImage
      (.ensureImage role.name used) ?_ hremoval.passes (by decide) rfl rfl rfl⟩
    exact ⟨_, List.append_assoc _ _ _⟩
  | startFailed removal cause hremoval =>
    have hdone : List.Forall₂ Passes
        (removalPlan slot.container ++ [(.ensureImage, .ensureImage role.name used)])
        (removal ++ [⟨.ensureImage role.name used, .ok ()⟩]) :=
      List.rel_append hremoval.passes (.cons (passes_ok _ _ _) .nil)
    refine ⟨nobody, hremoval.gives (by simp [Gives]), .of_failed .start (.start descriptor) ?_
      hdone (by decide) ?_ rfl rfl⟩
    · rw [List.append_assoc]
      exact ⟨_, List.append_assoc _ _ _⟩
    · rw [List.append_assoc]
      rfl
  | startUnconfirmed removal handle cause hremoval =>
    have hdone : List.Forall₂ Passes
        (removalPlan slot.container ++
          [(.ensureImage, .ensureImage role.name used), (.start, .start descriptor)])
        (removal ++ [⟨.ensureImage role.name used, .ok ()⟩, ⟨.start descriptor, .ok handle⟩]) :=
      List.rel_append hremoval.passes (.cons (passes_ok _ _ _) (.cons (passes_ok _ _ _) .nil))
    refine ⟨handle, hremoval.gives (by simp [Gives]), .of_failed .confirmStart
      (.awaitStart handle.id) ?_ hdone (by decide) ?_ rfl rfl⟩
    · rw [List.append_assoc]
      exact ⟨_, List.append_assoc _ _ _⟩
    · rw [List.append_assoc]
      rfl
  | replaced removal handle hremoval =>
    refine ⟨handle, hremoval.gives (by simp [Gives]), .completed ?_⟩
    refine List.rel_append hremoval.passes ?_
    exact .cons (passes_ok _ _ _) (.cons (passes_ok _ _ _) (.cons (passes_ok _ _ _) .nil))

end Endings

/-! ## A replace as a whole -/

/-- What runs under the lock alone is its body. -/
theorem run_locked {ρ α : Type} [Backend ρ] (access : Access) (body : Transaction α)
    (w : World ρ) : (locked access body).run w = body.run w :=
  run_thenUnlock body w

/-- A replace makes the calls of its plan up to the first that fails, the signal to the old
container apart.  Its result, the phase and the recorded image are those of the step where it ended,
and the other role is left alone. -/
theorem replace_follows_plan (settings : Settings) (role : Role) (refs : ImageRefs)
    (w : World Rehearsal) :
    ∃ fresh calls slot,
      ((replace settings role refs).run w).2.backend.calls = w.backend.calls ++ calls ∧
      (∀ before exchange, before ++ [exchange] <+: calls →
        exchange.answer = w.backend.answers (w.backend.calls ++ before) exchange.call) ∧
      Replace.Gives fresh calls ∧
      Replace.Follows settings role refs (w.roster.slot role) fresh calls
        ((replace settings role refs).run w).1 slot ∧
      ((replace settings role refs).run w).2.roster = w.roster.put role slot := by
  have hrun : ∃ s : Account,
      s.Fits (fun _ _ => False) w.backend ((replace settings role refs).run w).2 ∧
      ∃ slot calls, Ends settings role refs (w.roster.slot role) calls
        ((replace settings role refs).run w).1 slot ∧
        s = w.account.after role slot slot calls := by
    rw [replace, run_locked]
    exact Transaction.ensures_run ensures_replaceLocked
  obtain ⟨s, hfits, slot, calls, hends, rfl⟩ := hrun
  obtain ⟨fresh, hgives, hfollows⟩ := hends.follows
  obtain ⟨hcalls, -, hgiven⟩ := Rehearsal.recorded hfits.calls
  exact ⟨fresh, calls, slot, hcalls, hgiven, hgives, hfollows, hfits.roster⟩

end Caretaker.Crew
