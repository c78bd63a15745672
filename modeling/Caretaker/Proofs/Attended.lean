import Caretaker.Proofs.Dialogue
import Caretaker.Proofs.Work

/-!
# Services that are merely attended to

Whoever stops a service, waits for it, or asks for its health only attends to what is there: no
container is started or removed, no slot is set and no loop is begun.  Serving health is no more
than that.  So as long as nobody starts the service nothing else happens to its containers, and
while one task starts it, that one task is to be looked at alone.

Main statements:

- `attending_task`: every use but a start only attends.
- `Scene.Attended.meet`, `Scene.Attended.live`: what was attended to stays so while nobody starts
  it.
- `Scene.Attended.answered`: nothing but a loop that is begun changes that.
-/

namespace Caretaker.Service

open Container (Backend)
open Script Service.Action
open Caretaker.Crew (tends)

/-! ## What attends -/

/-- Whether an activity serves health. -/
def Activity.Attends : Activity → Prop
  | .health | .healthFrom _ => True
  | .updates | .updatesFrom | .keepAlive | .keepAliveFrom _ _ => False

/-- Whether a request of the crew leaves the slots as they are and calls only to tend containers. -/
def Request.AttendsCrew : Crew.Request → Prop
  | .call c => tends c = true
  | .setSlot _ _ | .publish _ => False
  | .lock _ | .tryLock | .unlock | .log _ | .slot _ | .lastKnown => True

/-- Whether a request only attends to what is there. -/
def Request.Attends : Request → Prop
  | .crew r => AttendsCrew r
  | .shutdown _ | .listen _ | .leave _ | .claimUpdates | .awaitUpdates => True
  | _ => False

/-- Whether an ending brings nothing more than serving health. -/
def Ending.Attends : Ending → Prop
  | .result _ | .round none => True
  | .round (some activity) => activity.Attends

/-- Whether a task only attends to what is there, to its end and after it. -/
structure Attending (script : Action Ending) : Prop where
  only : script.Only (S := signature) Request.Attends
  ends : script.Yields Ending.Attends

section Scripts

variable {α : Type}

theorem only_ofCrew {allowed : Request → Prop} {t : Crew.Transaction α}
    (h : t.Only (S := Crew.signature) fun r => allowed (.crew r)) :
    (ofCrew t).Only (S := signature) allowed := by
  induction t with
  | done value => trivial
  | ask r next ih => exact ⟨h.1, fun answer => ih answer (h.2 answer)⟩

theorem Request.attendsCrew_of_tends {r : Crew.Request} (h : r.Tends) : AttendsCrew r := by
  cases r with
  | call c => exact h
  | setSlot role slot => exact h.elim
  | publish role => exact h.elim
  | _ => trivial

theorem attends_locked {access : Crew.Access} {body : Crew.Transaction α}
    (h : body.Only (S := Crew.signature) Crew.Request.Tends) :
    (ofCrew (Crew.Transaction.locked access body)).Only (S := signature) Request.Attends := by
  refine only_ofCrew ⟨trivial, fun _ => ?_⟩
  have hbody := h.mono fun _ => Request.attendsCrew_of_tends
  exact hbody.bind fun _ => ⟨trivial, fun _ => trivial⟩

theorem attends_stop : stop.Only (S := signature) Request.Attends :=
  attends_locked (.bind (Crew.only_stopLocked .updater) fun _ => Crew.only_stopLocked .supervisor)

theorem attends_joinUpdates : joinUpdates.Only (S := signature) Request.Attends := by
  refine ⟨trivial, fun claimed => ?_⟩
  cases claimed with
  | true => exact ⟨trivial, fun _ => trivial⟩
  | false => trivial

theorem attends_checkHealth (settings : Settings) :
    (checkHealth settings).Only (S := signature) Request.Attends := by
  refine .bind (only_ofCrew ⟨trivial, fun held => ?_⟩) fun statuses => trivial
  cases held with
  | true =>
    have hstatuses : Crew.statusesLocked.Only (S := Crew.signature) Crew.Request.Tends := by
      simp only [Crew.statusesLocked, Role.all, List.mapM_cons, List.mapM_nil]
      refine .bind (Crew.only_statusLocked .updater) fun _ => ?_
      exact .bind (.bind (Crew.only_statusLocked .supervisor) fun _ => trivial) fun _ => trivial
    exact (hstatuses.mono fun _ => Request.attendsCrew_of_tends).bind fun _ =>
      ⟨trivial, fun _ => trivial⟩
  | false => exact ⟨trivial, fun roster => trivial⟩

theorem attends_serve (settings : Settings) (timestamp method target : String) :
    (serve settings timestamp method target).Only (S := signature) Request.Attends := by
  unfold serve
  split
  · exact .bind (attends_checkHealth settings) fun report => trivial
  · trivial

end Scripts

/-- Every use but a start only attends. -/
theorem attending_task (settings : Settings) {use : Use} (h : use ≠ .start) :
    Attending (use.task settings) := by
  constructor
  · refine .map _ ?_
    cases use with
    | start => exact absurd rfl h
    | stop => exact .map _ attends_stop
    | join => exact .map _ attends_joinUpdates
    | report => exact .map _ (attends_checkHealth settings)
    | request timestamp method target =>
      exact .map _ (attends_serve settings timestamp method target)
  · exact yields_map _ fun result => trivial

/-- A round of serving health only attends. -/
theorem attending_round (settings : Settings) {activity : Activity} (h : activity.Attends) :
    Attending (.round <$> activity.round settings) := by
  cases activity with
  | health =>
    constructor
    · refine .map _ ⟨trivial, fun free => ?_⟩
      cases free <;> exact ⟨trivial, fun _ => trivial⟩
    · refine Yields.map (?_ : Yields (fun next : Next => Ending.Attends (.round next)) _)
        fun next hnext => hnext
      intro free
      cases free <;> exact fun _ => trivial
  | healthFrom seen =>
    constructor
    · refine .map _ ⟨trivial, fun news => ?_⟩
      rcases news with ⟨sent, _ | _⟩ | _
      · trivial
      · exact ⟨trivial, fun _ => trivial⟩
      · exact ⟨trivial, fun _ => trivial⟩
    · refine Yields.map (?_ : Yields (fun next : Next => Ending.Attends (.round next)) _)
        fun next hnext => hnext
      intro news
      rcases news with ⟨sent, _ | _⟩ | _
      · trivial
      · exact fun _ => trivial
      · exact fun _ => trivial
  | _ => exact h.elim

/-! ## What a request leaves alone -/

/-- Whether a request begins no loop and is no part of one. -/
def Request.Calm : Request → Prop
  | .spawn activity => activity.Attends
  | .leaveImages | .tickOrShutdown _ _ => False
  | _ => True

theorem Request.Attends.calm {r : Request} (h : r.Attends) : r.Calm := by
  cases r with
  | spawn activity => exact h.elim
  | leaveImages => exact h.elim
  | tickOrShutdown nextTick seen => exact h.elim
  | _ => trivial

/-- The calls of a request that attends only tend containers. -/
theorem Request.Attends.calls {r : Request} (h : r.Attends) {who : Nat}
    {call : Nat × Container.Call} (hmem : call ∈ r.calls who) : tends call.2 = true := by
  unfold Request.calls at hmem
  split at hmem
  · rw [List.mem_singleton.1 hmem]
    exact h
  · cases hmem

section Worlds

variable {ρ : Type} [Backend ρ] {settings : Settings}

/-- A request that begins no loop leaves the updates as they are, and spawns no loop. -/
theorem World.choose_calm {r : Request} (h : r.Calm) (newsFirst : Bool) (who : Nat) (w : World ρ) :
    (w.choose newsFirst who r).2.updates = w.updates ∧
      ∀ activity ∈ (w.choose newsFirst who r).2.spawned,
        activity ∈ w.spawned ∨ activity.Attends := by
  cases r with
  | spawn activity =>
    have hnot : activity ≠ .updates := by
      rintro rfl
      exact h
    simp only [choose, attempt, noteSpawn, if_neg hnot]
    refine ⟨trivial, fun other hmem => ?_⟩
    rcases List.mem_append.1 hmem with hmem | hmem
    · exact .inl hmem
    · rw [List.mem_singleton.1 hmem]
      exact .inr h
  | leaveImages => exact h.elim
  | tickOrShutdown nextTick seen => exact h.elim
  | nextImages =>
    simp only [choose, attempt]
    split <;> exact ⟨rfl, fun other hmem => .inl hmem⟩
  | listen address =>
    simp only [choose, attempt]
    split <;> exact ⟨rfl, fun other hmem => .inl hmem⟩
  | _ => exact ⟨rfl, fun other hmem => .inl hmem⟩

theorem beginning_calm {r : Request} (h : r.Calm) (who clock : Nat) (answer : r.Answer) :
    beginning who clock r answer = [] := by
  cases r with
  | tickOrShutdown nextTick seen => exact h.elim
  | _ => rfl

end Worlds

/-! ## Scenes -/

/-- Whether everybody but one task at most attends to a service: no loop is there or was begun, and
the calls of the others tend containers. -/
structure Scene.Attended {ρ : Type} (but : Option Nat) (s : Scene ρ) : Prop where
  tasks : ∀ who script, but ≠ some who → s.tasks[who]? = some (some script) → Attending script
  spawned : ∀ activity ∈ s.world.spawned, activity.Attends
  calls : ∀ call ∈ s.calls, but ≠ some call.1 → tends call.2 = true
  passes : s.passes = []
  updates : s.world.updates = .absent

namespace Scene

variable {ρ : Type} {settings : Settings} {s : Scene ρ} {but : Option Nat} {who : Nat}

theorem attended_fresh (backend : ρ) (images : ImageStore) (probe : Probe) :
    (fresh backend images probe).Attended none where
  tasks who script _ htask := by cases htask
  spawned _ hmem := by cases hmem
  calls _ hmem := by cases hmem
  passes := rfl
  updates := rfl

/-- Nobody has to be looked at apart while everybody attends. -/
theorem Attended.weaken (h : s.Attended none) (but : Option Nat) : s.Attended but :=
  { h with
    tasks := fun who script _ => h.tasks who script nofun
    calls := fun call hmem _ => h.calls call hmem nofun }

/-- Who attends may be set in the place of a task. -/
theorem Attended.tasks_set (h : s.Attended but) {task : Option (Action Ending)}
    (htask : but ≠ some who → ∀ script, task = some script → Attending script) (other : Nat)
    (script : Action Ending) (hother : but ≠ some other)
    (hget : (s.tasks.set who task)[other]? = some (some script)) : Attending script := by
  rcases task_of_set hget with ⟨rfl, hscript⟩ | ⟨-, hget⟩
  · exact htask hother script hscript.symm
  · exact h.tasks other script hother hget

/-- Who attends may be added to the tasks. -/
theorem Attended.tasks_append (h : s.Attended but) {news : List (Option (Action Ending))}
    (hnews : ∀ script, some script ∈ news → Attending script) (other : Nat)
    (script : Action Ending) (hother : but ≠ some other)
    (hget : (s.tasks ++ news)[other]? = some (some script)) : Attending script := by
  rcases task_of_append hget with hget | ⟨-, hmem⟩
  · exact h.tasks other script hother hget
  · exact hnews script hmem

section

variable [Backend ρ]

/-- An answer to a request that begins no loop changes nothing of that; the requests of all but one
task have to attend. -/
theorem Attended.answered (h : s.Attended but) {r : Request} {answer : r.Answer}
    {rest : Action Ending} (newsFirst : Bool) (hcalm : r.Calm)
    (hattends : but ≠ some who → r.Attends ∧ Attending rest) :
    (s.answered who r answer rest (s.world.choose newsFirst who r).2).Attended but := by
  obtain ⟨hupdates, hspawned⟩ := World.choose_calm hcalm newsFirst who s.world
  constructor
  · refine h.tasks_set fun hwho script hscript => ?_
    cases hscript
    exact (hattends hwho).2
  · intro activity hmem
    rcases hspawned activity hmem with hmem | hnew
    · exact h.spawned activity hmem
    · exact hnew
  · intro call hmem hwho
    rcases List.mem_append.1 hmem with hmem | hmem
    · exact h.calls call hmem hwho
    · rw [Request.who_of_calls hmem] at hwho
      exact (hattends hwho).1.calls hmem
  · show s.passes ++ _ = []
    rw [h.passes, beginning_calm hcalm, List.append_nil]
  · exact hupdates.trans h.updates

/-- A request that begins no loop may wait. -/
theorem Attended.waits (h : s.Attended but) {r : Request} (newsFirst : Bool) (hcalm : r.Calm) :
    Scene.Attended but { s with world := (s.world.choose newsFirst who r).2 } := by
  obtain ⟨hupdates, hspawned⟩ := World.choose_calm hcalm newsFirst who s.world
  refine { h with spawned := fun activity hmem => ?_, updates := hupdates.trans h.updates }
  rcases hspawned activity hmem with hmem | hnew
  · exact h.spawned activity hmem
  · exact hnew

/-- Others go on. -/
theorem Attended.goOn (h : s.Attended but) (hwho : but ≠ some who) (newsFirst : Bool) :
    (s.goOn settings who newsFirst).Attended but := by
  rcases htask : s.tasks[who]? with _ | _ | ending | ⟨r, next⟩
  · unfold Scene.goOn
    rw [htask]
    exact h
  · rw [goOn_ended htask]
    exact h
  · have hending : ending.Attends := (h.tasks who _ hwho htask).ends
    cases hresume : (World.host ρ settings).resume ending with
    | some script =>
      rw [goOn_of_resume htask hresume]
      refine { h with tasks := h.tasks_set fun _ script' hscript => ?_ }
      -- only a round of serving health is followed by another one
      cases hscript
      rcases ending with result | (_ | activity)
      · cases hresume
      · cases hresume
      · cases hresume
        exact attending_round settings hending
    | none =>
      rw [goOn_of_end htask hresume]
      exact { h with tasks := h.tasks_set fun _ script' hscript => by cases hscript }
  · have hscript : Attending (Script.ask (S := signature) r next) := h.tasks who _ hwho htask
    rcases goOn_ask htask newsFirst with ⟨-, heq⟩ | ⟨answer, -, heq⟩
    · rw [heq]
      exact h.waits newsFirst hscript.only.1.calm
    · rw [heq]
      exact h.answered newsFirst hscript.only.1.calm fun _ =>
        ⟨hscript.only.1, hscript.only.2 answer, hscript.ends answer⟩

/-- The exempt task goes on, if its next request begins no loop. -/
theorem Attended.goOn_exempt (h : s.Attended (some who)) {rest : Action Result}
    (htask : s.tasks[who]? = some (some (.result <$> rest)) ∨ s.tasks[who]? = some none)
    (hcalm : ∀ r next, rest = Script.ask (S := signature) r next → r.Calm) (newsFirst : Bool) :
    (s.goOn settings who newsFirst).Attended (some who) := by
  rcases htask with htask | htask
  · cases rest with
    | done result =>
      rw [goOn_of_end htask rfl]
      exact { h with tasks := h.tasks_set fun hwho => absurd rfl hwho }
    | ask r next =>
      have hr : r.Calm := hcalm r next rfl
      rcases goOn_ask htask newsFirst with ⟨-, heq⟩ | ⟨answer, -, heq⟩
      · rw [heq]
        exact h.waits newsFirst hr
      · rw [heq]
        exact h.answered newsFirst hr fun hwho => absurd rfl hwho
  · rw [goOn_ended htask]
    exact h

/-- One more occurrence, if it is no start and not that the exempt task goes on. -/
theorem Attended.meet (h : s.Attended but) {occurrence : Occurrence ρ}
    (hstart : occurrence ≠ .uses .start)
    (hbut : ∀ who newsFirst, occurrence = .goesOn who newsFirst → but ≠ some who) :
    (s.meet settings occurrence).Attended but := by
  cases occurrence with
  | uses use =>
    have huse : use ≠ .start := by
      rintro rfl
      exact hstart rfl
    refine { h with tasks := h.tasks_append fun script hmem => ?_ }
    rw [Option.some.inj (List.mem_singleton.1 hmem)]
    exact attending_task settings huse
  | adopts =>
    refine { h with
      tasks := h.tasks_append fun script hmem => ?_
      spawned := fun _ hmem => by cases hmem }
    obtain ⟨script', hscripts, hscript⟩ := List.mem_map.1 hmem
    obtain ⟨activity, hspawned, rfl⟩ := List.mem_map.1 hscripts
    rw [← Option.some.inj hscript]
    exact attending_round settings (h.spawned activity hspawned)
  | goesOn who newsFirst => exact h.goOn (hbut who newsFirst rfl) newsFirst
  | sends value =>
    show (s.step settings (.sends value)).Attended but
    simp only [Scene.step]
    split
    · exact { h with }
    · exact h
  | _ => exact { h with }

/-- As long as nobody starts a service, everybody attends. -/
theorem Attended.live (h : s.Attended none) {occurrences : List (Occurrence ρ)}
    (hstart : .start ∉ uses occurrences) : (s.live settings occurrences).Attended none := by
  induction occurrences generalizing s with
  | nil => exact h
  | cons occurrence rest ih =>
    have hfirst : occurrence ≠ .uses .start := by
      rintro rfl
      exact hstart List.mem_cons_self
    refine ih (h.meet hfirst fun _ _ _ => nofun) fun hmem => hstart ?_
    cases occurrence with
    | uses use => exact List.mem_cons_of_mem _ hmem
    | _ => exact hmem

end

end Scene

end Caretaker.Service
