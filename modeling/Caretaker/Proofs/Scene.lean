import Caretaker.Proofs.Ensures
import Caretaker.Service.World

/-!
# Scenes

The tasks of a service mix in any way.  A scene is a service with its tasks; one move of it lets one
task make its next request, begins a task, or changes something from outside: time passes, the
shutdown signal is sent, containers change.  Where a tick and news of the shutdown signal are there
at once, either may be taken.

A scene keeps book of the keep-alive passes that began and of who made which call.

Main definitions:

- `Scene.step`, `Scene.run`: what moves do.

Main statements:

- `Scene.goOn_frame`: tasks change neither the time nor the shutdown signal.
- `Scene.step_of_ne`: nobody is moved by others.
-/

namespace Caretaker.Service

open Container (Backend)
open Script

/-- A keep-alive pass that began. -/
structure Pass where
  who : Nat
  /-- The tick at which it was due. -/
  tick : Nat
  /-- The time at which it began. -/
  began : Nat
deriving DecidableEq, Repr

/-- The pass that begins at the time `clock` by an answer, if one does. -/
def beginning (who clock : Nat) : (r : Request) → r.Answer → List Pass
  | .tickOrShutdown tick _, .tick => [⟨who, tick, clock⟩]
  | _, _ => []

/-- The call of a request, if it is one, with who makes it. -/
def Request.calls (who : Nat) : Request → List (Nat × Container.Call)
  | .crew (.call c) => [(who, c)]
  | _ => []

/-- Answers a request of a task.  News of the shutdown signal may be taken before a tick that is
there as well. -/
def World.choose {ρ : Type} [Backend ρ] (newsFirst : Bool) (who : Nat) :
    (r : Request) → World ρ → Option r.Answer × World ρ
  | .tickOrShutdown nextTick seen, w =>
    match if newsFirst then w.shutdown.news? seen else none with
    | some news => (some (.shutdown news), w)
    | none => w.attempt who (.tickOrShutdown nextTick seen)
  | r, w => w.attempt who r

theorem filter_beginning (who other clock : Nat) (r : Request) (answer : r.Answer) :
    (beginning who clock r answer).filter (·.who = other) =
      if other = who then beginning who clock r answer else [] := by
  unfold beginning
  split
  · by_cases heq : other = who
    · simp [heq]
    · simp [heq, Ne.symm heq]
  · simp

theorem Request.filter_calls (who other : Nat) (r : Request) :
    (r.calls who).filter (·.1 = other) = if other = who then r.calls who else [] := by
  unfold calls
  split
  · by_cases heq : other = who
    · simp [heq]
    · simp [heq, Ne.symm heq]
  · simp

/-- A service with its tasks. -/
structure Scene (ρ : Type) where
  world : World ρ
  /-- What tasks still do, by number; none for a task that ended. -/
  tasks : List (Option (Action Ending)) := []
  /-- What tasks ended with, by number, the last one first. -/
  ended : List (Nat × Ending) := []
  /-- The keep-alive passes that began, the first one first. -/
  passes : List Pass := []
  /-- Who made which call, the first one first. -/
  calls : List (Nat × Container.Call) := []

/-- What can happen next. -/
inductive Move (ρ : Type) where
  /-- Somebody begins something. -/
  | begins (action : Action Ending)
  /-- What was spawned becomes tasks. -/
  | adopts
  /-- A task makes its next request. -/
  | goesOn (who : Nat) (newsFirst : Bool)
  /-- Time passes. -/
  | elapses (milliseconds : Nat)
  /-- The shutdown signal is sent. -/
  | sends (value : Bool)
  /-- The sender of the shutdown signal is dropped. -/
  | closes
  /-- Other calls are held back than before. -/
  | gates (gated : List Container.Operation)
  /-- Images are announced, or publishers are dropped. -/
  | announces (images : ImageStore)
  /-- The backend changes on its own. -/
  | changes (backend : ρ)

/-- A scene in which a task goes on with an answer. -/
def Scene.answered {ρ : Type} (who : Nat) (r : Request) (answer : r.Answer)
    (rest : Action Ending) (w : World ρ) (s : Scene ρ) : Scene ρ :=
  { s with
    world := w
    tasks := s.tasks.set who (some rest)
    passes := s.passes ++ beginning who w.clock r answer
    calls := s.calls ++ r.calls who }

namespace Scene

variable {ρ : Type} [Backend ρ]

/-- Makes tasks of what was spawned. -/
def adopt (settings : Settings) (s : Scene ρ) : Scene ρ :=
  let (scripts, world) := (World.host ρ settings).takeSpawned s.world
  { s with world, tasks := s.tasks ++ scripts.map some }

/-- Lets a task make its next request, or end. -/
def goOn (settings : Settings) (who : Nat) (newsFirst : Bool) (s : Scene ρ) : Scene ρ :=
  match s.tasks[who]? with
  | some (some (Script.done ending)) =>
    match (World.host ρ settings).resume ending with
    | some script => { s with tasks := s.tasks.set who (some script) }
    | none => { s with tasks := s.tasks.set who none, ended := (who, ending) :: s.ended }
  | some (some (Script.ask r next)) =>
    match s.world.choose newsFirst who r with
    | (none, w) => { s with world := w }
    | (some answer, w) => s.answered who r answer (next answer) w
  | _ => s

/-- What a move does.  Nothing is sent when the sender is gone. -/
def step (settings : Settings) (s : Scene ρ) : Move ρ → Scene ρ
  | .begins action => { s with tasks := s.tasks ++ [some action] }
  | .adopts => s.adopt settings
  | .goesOn who newsFirst => s.goOn settings who newsFirst
  | .elapses milliseconds =>
    { s with world := { s.world with clock := s.world.clock + milliseconds } }
  | .sends value =>
    if s.world.shutdown.isOpen then
      { s with world := { s.world with shutdown := s.world.shutdown.send value } }
    else s
  | .closes => { s with world := { s.world with shutdown := s.world.shutdown.close } }
  | .gates gated => { s with world := { s.world with crew := { s.world.crew with gated } } }
  | .announces images => { s with world := { s.world with images } }
  | .changes backend => { s with world := { s.world with crew := { s.world.crew with backend } } }

/-- What moves do one after the other. -/
def run (settings : Settings) (moves : List (Move ρ)) (s : Scene ρ) : Scene ρ :=
  moves.foldl (step settings) s

theorem run_append (settings : Settings) (first second : List (Move ρ)) (s : Scene ρ) :
    s.run settings (first ++ second) = (s.run settings first).run settings second :=
  List.foldl_append

/-- The passes of a task. -/
def passesOf (who : Nat) (s : Scene ρ) : List Pass := s.passes.filter (·.who = who)

/-- The calls of a task. -/
def callsOf (who : Nat) (s : Scene ρ) : List (Nat × Container.Call) := s.calls.filter (·.1 = who)

end Scene

/-! ## Time and the shutdown signal -/

section Requests

variable {ρ : Type} [Backend ρ] {w : World ρ} {who : Nat}

theorem World.attempt_frame (w : World ρ) (who : Nat) (r : Request) :
    (w.attempt who r).2.clock = w.clock ∧ (w.attempt who r).2.shutdown = w.shutdown := by
  cases r with
  | spawn activity =>
    simp only [attempt, noteSpawn]
    split <;> exact ⟨rfl, rfl⟩
  | nextImages =>
    simp only [attempt]
    split <;> exact ⟨rfl, rfl⟩
  | tickOrShutdown =>
    simp only [attempt]
    split <;> exact ⟨rfl, rfl⟩
  | listen =>
    simp only [attempt]
    split <;> exact ⟨rfl, rfl⟩
  | _ => exact ⟨rfl, rfl⟩

/-- No request changes the time or the shutdown signal. -/
theorem World.choose_frame (newsFirst : Bool) (who : Nat) (r : Request) (w : World ρ) :
    (w.choose newsFirst who r).2.clock = w.clock ∧
      (w.choose newsFirst who r).2.shutdown = w.shutdown := by
  cases r with
  | tickOrShutdown nextTick seen =>
    simp only [choose]
    split
    · exact ⟨rfl, rfl⟩
    · exact attempt_frame w who _
  | _ => exact attempt_frame w who _

/-- Where news do not come first, requests are answered as ever. -/
theorem World.choose_false (who : Nat) (r : Request) (w : World ρ) :
    w.choose false who r = w.attempt who r := by
  cases r <;> rfl

/-- A tick is taken when it is due, and news when they are there. -/
theorem World.choose_tickOrShutdown (newsFirst : Bool) (who nextTick seen : Nat) (w : World ρ) :
    (nextTick ≤ w.clock ∧
        w.choose newsFirst who (.tickOrShutdown nextTick seen) = (some .tick, w)) ∨
      w.choose newsFirst who (.tickOrShutdown nextTick seen) =
        ((w.shutdown.news? seen).map .shutdown, w) := by
  have hattempt : (nextTick ≤ w.clock ∧
        w.attempt who (.tickOrShutdown nextTick seen) = (some .tick, w)) ∨
      w.attempt who (.tickOrShutdown nextTick seen) =
        ((w.shutdown.news? seen).map .shutdown, w) := by
    simp only [attempt]
    split
    · next hdue => exact .inl ⟨hdue, rfl⟩
    · exact .inr rfl
  simp only [choose]
  split
  · -- News are taken before anybody looks for a tick.
    next news hnews =>
    refine .inr ?_
    cases newsFirst with
    | false => cases hnews
    | true =>
      rw [if_pos rfl] at hnews
      rw [hnews]
      rfl
  · exact hattempt

/-- A tick is not taken before it is due. -/
theorem World.choose_of_lt {nextTick : Nat} (newsFirst : Bool) (who seen : Nat)
    (h : w.clock < nextTick) :
    w.choose newsFirst who (.tickOrShutdown nextTick seen) =
      ((w.shutdown.news? seen).map .shutdown, w) := by
  rcases choose_tickOrShutdown newsFirst who nextTick seen w with ⟨hdue, -⟩ | hnews
  · exact absurd hdue (Nat.not_le_of_lt h)
  · exact hnews

end Requests

/-! ## What moves leave alone -/

namespace Scene

variable {ρ : Type} [Backend ρ] {settings : Settings} {s : Scene ρ} {who other : Nat}
  {newsFirst : Bool}

/-- A task that ended does nothing more. -/
theorem goOn_ended (htask : s.tasks[who]? = some none) (newsFirst : Bool) :
    s.goOn settings who newsFirst = s := by
  unfold goOn
  rw [htask]

section Asks

variable {r : Request} {next : r.Answer → Action Ending}

/-- A task that is not answered waits. -/
theorem goOn_of_waits {w : World ρ}
    (htask : s.tasks[who]? = some (some (Script.ask (S := signature) r next)))
    (hchoose : s.world.choose newsFirst who r = (none, w)) :
    s.goOn settings who newsFirst = { s with world := w } := by
  unfold goOn
  rw [htask]
  simp only [hchoose]

/-- A task that is answered goes on. -/
theorem goOn_of_answer {answer : r.Answer} {w : World ρ}
    (htask : s.tasks[who]? = some (some (Script.ask (S := signature) r next)))
    (hchoose : s.world.choose newsFirst who r = (some answer, w)) :
    s.goOn settings who newsFirst = s.answered who r answer (next answer) w := by
  unfold goOn
  rw [htask]
  simp only [hchoose]

/-- A task that makes a request waits, or goes on with an answer. -/
theorem goOn_ask (htask : s.tasks[who]? = some (some (Script.ask (S := signature) r next)))
    (newsFirst : Bool) :
    ((s.world.choose newsFirst who r).1 = none ∧
        s.goOn settings who newsFirst = { s with world := (s.world.choose newsFirst who r).2 }) ∨
      ∃ answer, (s.world.choose newsFirst who r).1 = some answer ∧
        s.goOn settings who newsFirst =
          s.answered who r answer (next answer) (s.world.choose newsFirst who r).2 := by
  rcases hchoose : s.world.choose newsFirst who r with ⟨_ | answer, w⟩
  · exact .inl ⟨rfl, goOn_of_waits htask hchoose⟩
  · exact .inr ⟨answer, rfl, goOn_of_answer htask hchoose⟩

end Asks

/-- A task at the end of a round goes on with the next one. -/
theorem goOn_of_resume {ending : Ending} {script : Action Ending}
    (htask : s.tasks[who]? = some (some (.done ending)))
    (hresume : (World.host ρ settings).resume ending = some script) :
    s.goOn settings who newsFirst = { s with tasks := s.tasks.set who (some script) } := by
  unfold goOn
  rw [htask]
  simp only [hresume]

/-- A task at its end is no task any more. -/
theorem goOn_of_end {ending : Ending} (htask : s.tasks[who]? = some (some (.done ending)))
    (hresume : (World.host ρ settings).resume ending = none) :
    s.goOn settings who newsFirst =
      { s with tasks := s.tasks.set who none, ended := (who, ending) :: s.ended } := by
  unfold goOn
  rw [htask]
  simp only [hresume]

/-- What a task can do: make a request, or end. -/
theorem goOn_cases (settings : Settings) (who : Nat) (newsFirst : Bool) (s : Scene ρ) :
    s.goOn settings who newsFirst = s ∨
    (∃ r, s.goOn settings who newsFirst =
      { s with world := (s.world.choose newsFirst who r).2 }) ∨
    (∃ r answer rest, s.goOn settings who newsFirst =
      s.answered who r answer rest (s.world.choose newsFirst who r).2) ∨
    ∃ task ended, s.goOn settings who newsFirst =
      { s with tasks := s.tasks.set who task, ended } := by
  rcases htask : s.tasks[who]? with _ | _ | ending | ⟨r, next⟩
  · refine .inl ?_
    unfold goOn
    rw [htask]
  · exact .inl (goOn_ended htask newsFirst)
  · cases hresume : (World.host ρ settings).resume ending with
    | some script => exact .inr (.inr (.inr ⟨_, s.ended, goOn_of_resume htask hresume⟩))
    | none => exact .inr (.inr (.inr ⟨_, _, goOn_of_end htask hresume⟩))
  · rcases goOn_ask htask newsFirst with ⟨-, heq⟩ | ⟨answer, -, heq⟩
    · exact .inr (.inl ⟨r, heq⟩)
    · exact .inr (.inr (.inl ⟨r, answer, _, heq⟩))

theorem goOn_frame (settings : Settings) (who : Nat) (newsFirst : Bool) (s : Scene ρ) :
    (s.goOn settings who newsFirst).world.clock = s.world.clock ∧
      (s.goOn settings who newsFirst).world.shutdown = s.world.shutdown := by
  rcases goOn_cases settings who newsFirst s with
    heq | ⟨r, heq⟩ | ⟨r, answer, rest, heq⟩ | ⟨task, ended, heq⟩
  · rw [heq]
    exact ⟨rfl, rfl⟩
  · rw [heq]
    exact World.choose_frame newsFirst who r s.world
  · rw [heq]
    exact World.choose_frame newsFirst who r s.world
  · rw [heq]
    exact ⟨rfl, rfl⟩

/-- Nothing that is about a task changes when another one goes on. -/
theorem goOn_of_ne (hne : other ≠ who) {task : Option (Action Ending)}
    (htask : s.tasks[other]? = some task) :
    (s.goOn settings who newsFirst).tasks[other]? = some task ∧
      (s.goOn settings who newsFirst).passesOf other = s.passesOf other ∧
      (s.goOn settings who newsFirst).callsOf other = s.callsOf other := by
  have hset : ∀ task', (s.tasks.set who task')[other]? = some task := fun task' =>
    (List.getElem?_set_ne hne.symm).trans htask
  rcases goOn_cases settings who newsFirst s with
    heq | ⟨r, heq⟩ | ⟨r, answer, rest, heq⟩ | ⟨task', ended, heq⟩
  · rw [heq]
    exact ⟨htask, rfl, rfl⟩
  · rw [heq]
    exact ⟨htask, rfl, rfl⟩
  · rw [heq]
    refine ⟨hset _, ?_, ?_⟩
    · show (s.passes ++ beginning who _ r answer).filter _ = s.passes.filter _
      rw [List.filter_append, filter_beginning, if_neg hne, List.append_nil]
    · show (s.calls ++ r.calls who).filter _ = s.calls.filter _
      rw [List.filter_append, Request.filter_calls, if_neg hne, List.append_nil]
  · rw [heq]
    exact ⟨hset _, rfl, rfl⟩

omit [Backend ρ] in
/-- What a task comes to by an answer. -/
theorem answered_self {r : Request} {answer : r.Answer} {rest : Action Ending} {w : World ρ}
    {task : Option (Action Ending)} (htask : s.tasks[who]? = some task) :
    (s.answered who r answer rest w).tasks[who]? = some (some rest) ∧
      (s.answered who r answer rest w).passesOf who =
        s.passesOf who ++ beginning who w.clock r answer ∧
      (s.answered who r answer rest w).callsOf who = s.callsOf who ++ r.calls who := by
  have hlt : who < s.tasks.length := (List.getElem?_eq_some_iff.1 htask).1
  refine ⟨List.getElem?_set_self hlt, ?_, ?_⟩
  · show (s.passes ++ beginning who w.clock r answer).filter _ = s.passes.filter _ ++ _
    rw [List.filter_append, filter_beginning, if_pos rfl]
  · show (s.calls ++ r.calls who).filter _ = s.calls.filter _ ++ _
    rw [List.filter_append, Request.filter_calls, if_pos rfl]

theorem task_adopt {task : Option (Action Ending)} (h : s.tasks[who]? = some task) :
    (s.adopt settings).tasks[who]? = some task := by
  have hlt : who < s.tasks.length := (List.getElem?_eq_some_iff.1 h).1
  exact (List.getElem?_append_left hlt).trans h

/-- Nothing that is about a task changes while it does not go on itself. -/
theorem step_of_ne (settings : Settings) {move : Move ρ}
    (hmove : ∀ newsFirst, move ≠ .goesOn who newsFirst) {task : Option (Action Ending)}
    (htask : s.tasks[who]? = some task) :
    (s.step settings move).tasks[who]? = some task ∧
      (s.step settings move).passesOf who = s.passesOf who ∧
      (s.step settings move).callsOf who = s.callsOf who := by
  cases move with
  | begins action =>
    have hlt : who < s.tasks.length := (List.getElem?_eq_some_iff.1 htask).1
    exact ⟨(List.getElem?_append_left hlt).trans htask, rfl, rfl⟩
  | adopts => exact ⟨task_adopt htask, rfl, rfl⟩
  | goesOn other newsFirst =>
    refine goOn_of_ne (fun heq => ?_) htask
    exact hmove newsFirst (by rw [heq])
  | sends value =>
    simp only [step]
    split <;> exact ⟨htask, rfl, rfl⟩
  | _ => exact ⟨htask, rfl, rfl⟩

/-- Time does not go back. -/
theorem clock_step (settings : Settings) (s : Scene ρ) (move : Move ρ) :
    s.world.clock ≤ (s.step settings move).world.clock := by
  cases move with
  | elapses milliseconds => exact Nat.le_add_right _ _
  | goesOn who newsFirst => exact Nat.le_of_eq (goOn_frame settings who newsFirst s).1.symm
  | sends value =>
    simp only [step]
    split <;> exact Nat.le_refl _
  | _ => exact Nat.le_refl _

theorem clock_run (settings : Settings) (s : Scene ρ) (moves : List (Move ρ)) :
    s.world.clock ≤ (s.run settings moves).world.clock := by
  induction moves generalizing s with
  | nil => exact Nat.le_refl _
  | cons move moves ih => exact Nat.le_trans (clock_step settings s move) (ih _)

/-- Sends of the shutdown signal are counted. -/
theorem sent_step (settings : Settings) (s : Scene ρ) (move : Move ρ) :
    s.world.shutdown.sent ≤ (s.step settings move).world.shutdown.sent := by
  cases move with
  | goesOn who newsFirst =>
    have hsame := (goOn_frame settings who newsFirst s).2
    exact Nat.le_of_eq (congrArg ShutdownSignal.sent hsame.symm)
  | sends value =>
    simp only [step]
    split
    · exact Nat.le_succ _
    · exact Nat.le_refl _
  | _ => exact Nat.le_refl _

/-- The shutdown stays on unless it is called off. -/
theorem value_step {move : Move ρ} (hmove : move ≠ .sends false)
    (hvalue : s.world.shutdown.value = true) :
    (s.step settings move).world.shutdown.value = true := by
  cases move with
  | goesOn who newsFirst =>
    show (s.goOn settings who newsFirst).world.shutdown.value = true
    rw [(goOn_frame settings who newsFirst s).2]
    exact hvalue
  | sends value =>
    cases value with
    | false => exact absurd rfl hmove
    | true =>
      simp only [step]
      split
      · rfl
      · exact hvalue
  | _ => exact hvalue

end Scene

end Caretaker.Service
