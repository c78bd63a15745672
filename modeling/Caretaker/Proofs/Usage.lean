import Caretaker.Proofs.Scene

/-!
# Services in use

A service is used by who starts it, stops it, waits for it and asks for its health.  While its tasks
go on in any order, time passes, the shutdown signal is sent, images are announced and containers
change on their own.  All that can happen is told without the service's settings, so that what
happens to two services can be the same.

Main definitions:

- `Use.task`: what a use lets a service do.
- `Occurrence.move`, `Scene.live`: what occurrences make of a scene.

Main statements:

- `Scene.Numbered.live`: only tasks that were begun make calls and end.
-/

namespace Caretaker.Service

open Container (Backend)
open Script

/-- What a service is used for. -/
inductive Use where
  | start
  | stop
  /-- Waits until the updates end. -/
  | join
  /-- Asks for a health report. -/
  | report
  /-- Sends a request to the health server. -/
  | request (timestamp method target : String)
deriving DecidableEq, Repr

/-- What a service does for who uses it. -/
def Use.action (settings : Settings) : Use → Action Result
  | start => .started <$> Service.start settings
  | stop => (fun () => .finished) <$> Service.stop
  | join => (fun () => .finished) <$> joinUpdates
  | report => .report <$> checkHealth settings
  | request timestamp method target => .response <$> serve settings timestamp method target

/-- The task that a use begins. -/
def Use.task (settings : Settings) (use : Use) : Action Ending := .result <$> use.action settings

/-- What can happen to a service. -/
inductive Occurrence (ρ : Type) where
  | uses (use : Use)
  /-- What was spawned becomes tasks. -/
  | adopts
  /-- A task makes its next request. -/
  | goesOn (who : Nat) (newsFirst : Bool)
  | elapses (milliseconds : Nat)
  /-- The shutdown signal is sent. -/
  | sends (value : Bool)
  /-- The sender of the shutdown signal is dropped. -/
  | closes
  /-- Other calls are held back than before. -/
  | gates (gated : List Container.Operation)
  /-- Something is done from outside with the image store and its channel. -/
  | images (step : ImageStore.Step)
  /-- Containers change on their own, or the backend is told to fail. -/
  | changes (f : ρ → ρ)

/-- The move that an occurrence is in a scene. -/
def Occurrence.move {ρ : Type} (settings : Settings) (s : Scene ρ) : Occurrence ρ → Move ρ
  | uses use => .begins (use.task settings)
  | adopts => .adopts
  | goesOn who newsFirst => .goesOn who newsFirst
  | elapses milliseconds => .elapses milliseconds
  | sends value => .sends value
  | closes => .closes
  | gates gated => .gates gated
  | images step => .announces (s.world.images.step step).2
  | changes f => .changes (f s.world.crew.backend)

/-- The uses among occurrences, in order. -/
def uses {ρ : Type} (occurrences : List (Occurrence ρ)) : List Use :=
  occurrences.filterMap fun
    | .uses use => some use
    | _ => none

/-- What was done from outside with the image store, in order. -/
def imageSteps {ρ : Type} (occurrences : List (Occurrence ρ)) : List ImageStore.Step :=
  occurrences.filterMap fun
    | .images step => some step
    | _ => none

/-- The call of a request is made by who makes the request. -/
theorem Request.who_of_calls {who : Nat} {r : Request} {call : Nat × Container.Call}
    (h : call ∈ r.calls who) : call.1 = who := by
  unfold calls at h
  split at h
  · rw [List.mem_singleton.1 h]
  · cases h

/-- Who is found after a task was set: that task, or another one as before. -/
theorem task_of_set {tasks : List (Option (Action Ending))} {who other : Nat}
    {task task' : Option (Action Ending)} (h : (tasks.set who task)[other]? = some task') :
    other = who ∧ task' = task ∨ other ≠ who ∧ tasks[other]? = some task' := by
  by_cases heq : who = other
  · subst heq
    obtain ⟨hlt, hget⟩ := List.getElem?_eq_some_iff.1 h
    rw [List.getElem_set_self] at hget
    exact .inl ⟨rfl, hget.symm⟩
  · rw [List.getElem?_set_ne heq] at h
    exact .inr ⟨Ne.symm heq, h⟩

/-- Who is found after tasks were added: one that was there, or a new one. -/
theorem task_of_append {tasks news : List (Option (Action Ending))} {other : Nat}
    {task : Option (Action Ending)} (h : (tasks ++ news)[other]? = some task) :
    tasks[other]? = some task ∨ tasks.length ≤ other ∧ task ∈ news := by
  by_cases hlt : other < tasks.length
  · rw [List.getElem?_append_left hlt] at h
    exact .inl h
  · have hle : tasks.length ≤ other := Nat.le_of_not_lt hlt
    rw [List.getElem?_append_right hle] at h
    exact .inr ⟨hle, List.mem_of_getElem? h⟩

namespace Scene

variable {ρ : Type} {settings : Settings} {s : Scene ρ}

/-- A service to which nothing happened yet. -/
def fresh (backend : ρ) (images : ImageStore) (probe : Probe) : Scene ρ where
  world := { crew := { backend }, images, probe }

/-- A service after one more occurrence. -/
def meet [Backend ρ] (settings : Settings) (s : Scene ρ) (occurrence : Occurrence ρ) : Scene ρ :=
  s.step settings (occurrence.move settings s)

/-- A service after some occurrences. -/
def live [Backend ρ] (settings : Settings) (occurrences : List (Occurrence ρ)) (s : Scene ρ) :
    Scene ρ :=
  occurrences.foldl (meet settings) s

theorem live_append [Backend ρ] (first second : List (Occurrence ρ)) :
    s.live settings (first ++ second) = (s.live settings first).live settings second :=
  List.foldl_append

/-! ## Numbers of tasks -/

/-- What a task ended with; nothing while it is under way. -/
def endedOf (who : Nat) (s : Scene ρ) : List (Nat × Ending) := s.ended.filter (·.1 = who)

/-- Whether only tasks that were begun made calls and ended. -/
structure Numbered (s : Scene ρ) : Prop where
  calls : ∀ call ∈ s.calls, call.1 < s.tasks.length
  ended : ∀ result ∈ s.ended, result.1 < s.tasks.length

/-- Nothing is told of a task before it begins. -/
theorem Numbered.next (h : s.Numbered) :
    s.callsOf s.tasks.length = [] ∧ s.endedOf s.tasks.length = [] := by
  constructor
  · refine List.filter_eq_nil_iff.2 fun call hmem => ?_
    have := h.calls call hmem
    simp only [decide_eq_true_eq]
    omega
  · refine List.filter_eq_nil_iff.2 fun result hmem => ?_
    have := h.ended result hmem
    simp only [decide_eq_true_eq]
    omega

theorem numbered_fresh (backend : ρ) (images : ImageStore) (probe : Probe) :
    (fresh backend images probe).Numbered where
  calls _ hmem := absurd hmem List.not_mem_nil
  ended _ hmem := absurd hmem List.not_mem_nil

/-- More tasks can be begun. -/
theorem Numbered.grow (h : s.Numbered) {s' : Scene ρ} (hcalls : s'.calls = s.calls)
    (hended : s'.ended = s.ended) (htasks : s.tasks.length ≤ s'.tasks.length) : s'.Numbered := by
  constructor
  · intro call hmem
    exact Nat.lt_of_lt_of_le (h.calls call (hcalls ▸ hmem)) htasks
  · intro result hmem
    exact Nat.lt_of_lt_of_le (h.ended result (hended ▸ hmem)) htasks

section

variable [Backend ρ]

theorem Numbered.goOn (h : s.Numbered) (who : Nat) (newsFirst : Bool) :
    (s.goOn settings who newsFirst).Numbered := by
  rcases htask : s.tasks[who]? with _ | _ | ending | ⟨r, next⟩
  · unfold Scene.goOn
    rw [htask]
    exact h
  · rw [goOn_ended htask]
    exact h
  · have hlt : who < s.tasks.length := (List.getElem?_eq_some_iff.1 htask).1
    cases hresume : (World.host ρ settings).resume ending with
    | some script =>
      rw [goOn_of_resume htask hresume]
      exact h.grow rfl rfl (Nat.le_of_eq List.length_set.symm)
    | none =>
      rw [goOn_of_end htask hresume]
      refine ⟨fun call hmem => Nat.lt_of_lt_of_eq (h.calls call hmem) List.length_set.symm, ?_⟩
      intro result hmem
      refine Nat.lt_of_lt_of_eq ?_ List.length_set.symm
      rcases List.mem_cons.1 hmem with rfl | hmem
      · exact hlt
      · exact h.ended result hmem
  · have hlt : who < s.tasks.length := (List.getElem?_eq_some_iff.1 htask).1
    rcases goOn_ask htask newsFirst with ⟨-, heq⟩ | ⟨answer, -, heq⟩
    · rw [heq]
      exact h.grow rfl rfl (Nat.le_refl _)
    · rw [heq]
      refine ⟨?_, fun result hmem => Nat.lt_of_lt_of_eq (h.ended result hmem) List.length_set.symm⟩
      intro call hmem
      refine Nat.lt_of_lt_of_eq ?_ List.length_set.symm
      rcases List.mem_append.1 hmem with hmem | hmem
      · exact h.calls call hmem
      · rw [Request.who_of_calls hmem]
        exact hlt

theorem Numbered.step (h : s.Numbered) (move : Move ρ) : (s.step settings move).Numbered := by
  cases move with
  | begins action => exact h.grow rfl rfl (by simp [Scene.step])
  | adopts => exact h.grow rfl rfl (by simp [Scene.step, adopt])
  | goesOn who newsFirst => exact h.goOn who newsFirst
  | sends value =>
    simp only [Scene.step]
    split
    · exact h.grow rfl rfl (Nat.le_refl _)
    · exact h
  | _ => exact h.grow rfl rfl (Nat.le_refl _)

theorem Numbered.live (h : s.Numbered) (occurrences : List (Occurrence ρ)) :
    (s.live settings occurrences).Numbered := by
  induction occurrences generalizing s with
  | nil => exact h
  | cons occurrence rest ih => exact ih (h.step _)

end

end Scene

end Caretaker.Service
