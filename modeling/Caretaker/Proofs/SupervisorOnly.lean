import Mathlib.Data.List.Induction
import Caretaker.Proofs.ImageStream
import Caretaker.Proofs.LoneService

/-!
# Services that run the supervisor only

Without auto-update the updater is kept out of everything the service does: its slot stays as it was
at the start, no call is about a container of its own, the image stream stays with the store, and
health is that of the supervisor.

Main definitions:

- `Covers`: which calls are about the supervisor.
- `World.Lone`, `Scene.Lone`: the supervisor is launched as far as told, and nothing else is.

Main statements:

- `World.Lone.starter`, `World.Lone.watcher`: what a request of the start makes of such a world, and
  what one of anybody else does.
- `Scene.Lone.meet`: whatever happens to a service that was started once at most, it stays with the
  supervisor.
- `supervisor_only`: so it is in every run.
-/

namespace Caretaker.Service

open Container (Backend)
open Script Service.Action
open Caretaker.Crew (Progress)

/-! ## Worlds -/

/-- Whether a call is about the supervisor, whose slot holds `container`, or about no container in
particular. -/
def Covers (container : Option Handle) : Container.Call → Prop
  | .list | .nuke => True
  | .ensureImage user _ => user = Role.supervisor.name
  | .start descriptor => descriptor.name = Role.supervisor.containerName
  | .awaitStart id | .inspect id | .restart id | .stop id =>
    ∃ handle, container = some handle ∧ handle.id = id
  | .terminate _ | .awaitExit _ | .prune | .awaitPrune _ => False

theorem Covers.later {p p' : Progress} {c : Container.Call} (h : Covers p.slot.container c)
    (hlater : p.Later p') : Covers p'.slot.container c := by
  cases c with
  | awaitStart id => exact hlater.holds h
  | inspect id => exact hlater.holds h
  | restart id => exact hlater.holds h
  | stop id => exact hlater.holds h
  | _ => exact h

/-- The calls among some that are those of a first launch, by kind. -/
def launching (calls : List (Nat × Container.Call)) : List Container.Operation :=
  (calls.map (·.2.operation)).filter (· ∈ Crew.firstLaunch)

theorem launching_append (calls more : List (Nat × Container.Call)) :
    launching (calls ++ more) = launching calls ++ launching more := by
  rw [launching, List.map_append, List.filter_append, launching, launching]

/-- How a launch may go on by a request. -/
structure Advances (born : Handle → Prop) (image : String) (who : Nat) (r : Request)
    (p p' : Progress) : Prop where
  later : p.Later p'
  container : ∀ handle, p'.slot.container = some handle →
    p.slot.container = some handle ∨ born handle
  image : p'.slot.image = p.slot.image ∨ p'.slot.image = none ∨ p'.slot.image = some image
  calls : p'.calls = p.calls ++ launching (r.calls who)
  plan : p.calls <+: Crew.firstLaunch → p'.calls <+: Crew.firstLaunch
  covers : ∀ call ∈ r.calls who, Covers p'.slot.container call.2

/-- Whether a world is one in which the supervisor is launched as far as told, and nothing else. -/
structure World.Lone {ρ : Type} (p : Progress) (images : ImageStore) (w : World ρ) : Prop where
  roster : w.crew.roster = { supervisor := p.slot }
  shown : w.crew.lastKnown.updater = {}
  images : w.images = images
  updates : w.updates = .absent
  spawned : ∀ activity ∈ w.spawned, activity.Watches

section Worlds

variable {ρ : Type} [Backend ρ] {born : Handle → Prop} {image : String} {images : ImageStore}
  {p : Progress} {w : World ρ} {who : Nat}

/-- A request that is no call lets a launch stay where it is. -/
theorem advances_refl {r : Request} (hcalls : r.calls who = []) :
    Advances born image who r p p where
  later := .refl p
  container _ h := .inl h
  image := .inl rfl
  calls := by rw [hcalls]; exact (List.append_nil _).symm
  plan h := h
  covers call hmem := by rw [hcalls] at hmem; cases hmem

/-- A call of a start is one of a first launch, or of what comes before it. -/
theorem advances_called {c : Container.Call} (h : p.MayCall c) :
    Advances born image who (.crew (.call c)) p (p.called c) := by
  have hslot : (p.called c).slot = p.slot := by
    cases c <;> rfl
  refine ⟨.inr (by rw [hslot]), fun handle hhandle => .inl (hslot ▸ hhandle),
    .inl (by rw [hslot]), ?_, fun hplan => ?_, ?_⟩
  · cases c with
    | list => exact (List.append_nil _).symm
    | nuke => exact (List.append_nil _).symm
    | ensureImage user image => rfl
    | start descriptor => rfl
    | awaitStart id => rfl
    | _ => exact h.elim
  · cases c with
    | list => exact hplan
    | nuke => exact hplan
    | ensureImage user image =>
      show p.calls ++ _ <+: _
      rw [h.2]
      exact ⟨[.start, .awaitStart], rfl⟩
    | start descriptor =>
      show p.calls ++ _ <+: _
      rw [h.2]
      exact ⟨[.awaitStart], rfl⟩
    | awaitStart id =>
      show p.calls ++ _ <+: _
      rw [h.2]
      exact ⟨[], rfl⟩
    | _ => exact h.elim
  · intro call hmem
    rw [List.mem_singleton.1 hmem]
    cases c with
    | list => trivial
    | nuke => trivial
    | ensureImage user image => exact h.1
    | start descriptor => exact h.1
    | awaitStart id => exact hslot ▸ h.1
    | _ => exact h.elim

/-- A call that tends the supervisor is no part of a launch. -/
theorem advances_tend {c : Container.Call} (h : p.MayTend c) :
    Advances born image who (.crew (.call c)) p p := by
  refine ⟨.refl p, fun _ => .inl, .inl rfl, ?_, id, ?_⟩
  · cases c with
    | inspect id => exact (List.append_nil _).symm
    | restart id => exact (List.append_nil _).symm
    | stop id => exact (List.append_nil _).symm
    | _ => exact h.elim
  · intro call hmem
    rw [List.mem_singleton.1 hmem]
    cases c with
    | inspect id => exact h
    | restart id => exact h
    | stop id => exact h
    | _ => exact h.elim

/-- How a request of the start ends in such a world: it waits, or it is answered and the launch
goes on. -/
def World.Launches (born : Handle → Prop) (images : ImageStore) (p : Progress) (newsFirst : Bool)
    (who : Nat) (r : Request) (post : r.Answer → Progress → Prop) (w : World ρ) : Prop :=
  ((w.choose newsFirst who r).1 = none ∧ (w.choose newsFirst who r).2.Lone p images) ∨
    ∃ answer p', (w.choose newsFirst who r).1 = some answer ∧
      (w.choose newsFirst who r).2.Lone p' images ∧
      Advances born images.embedded.supervisor who r p p' ∧ post answer p'

/-- A call of the start may have to wait, and what it starts is born. -/
theorem World.Lone.starter_call (h : w.Lone p images) {c : Container.Call}
    {post : c.Answer → Progress → Prop}
    (hr : starter born images.embedded (.crew (.call c)) p post)
    (hborn : ∀ descriptor handle, descriptor.name = Role.supervisor.containerName →
      (Backend.perform (.start descriptor) w.crew.backend).answer = .ok handle → born handle)
    (newsFirst : Bool) : w.Launches born images p newsFirst who (.crew (.call c)) post := by
  obtain ⟨hc, hpost⟩ := hr
  by_cases hgated : c.operation ∈ w.crew.gated
  · have heq : w.choose newsFirst who (.crew (.call c)) = (none, w) := by
      simp only [choose, attempt, Crew.World.attempt, if_pos hgated]
    unfold Launches
    rw [heq]
    exact .inl ⟨rfl, h⟩
  · have heq : w.choose newsFirst who (.crew (.call c)) =
        (some (w.crew.perform c).1, { w with crew := (w.crew.perform c).2 }) := by
      simp only [choose, attempt, Crew.World.attempt, if_neg hgated]
    have hslot : (p.called c).slot = p.slot := by
      cases c <;> rfl
    unfold Launches
    rw [heq]
    refine .inr ⟨_, p.called c, rfl, { h with roster := ?_ }, advances_called hc, ?_⟩
    · rw [hslot]
      exact h.roster
    · refine hpost _ ?_
      cases c with
      | start descriptor =>
        show Progress.Bears born _ (Backend.perform (.start descriptor) w.crew.backend).answer
        cases hanswer : (Backend.perform (.start descriptor) w.crew.backend).answer with
        | ok handle => exact fun hname => hborn descriptor handle hname hanswer
        | error cause => trivial
      | _ => trivial

/-- The start puts into the slot what was there, or what was just born. -/
theorem World.Lone.starter_setSlot (h : w.Lone p images) {slot : Crew.Slot}
    {post : Unit → Progress → Prop}
    (hr : starter born images.embedded (.crew (.setSlot .supervisor slot)) p post)
    (newsFirst : Bool) :
    w.Launches born images p newsFirst who (.crew (.setSlot .supervisor slot)) post := by
  obtain ⟨⟨hcontainer, himage⟩, hpost⟩ := hr
  refine .inr ⟨(), { p with slot }, rfl, { h with roster := ?_ }, ?_, hpost⟩
  · show w.crew.roster.put .supervisor slot = _
    rw [h.roster]
    rfl
  · refine ⟨?_, ?_, .inr himage, (List.append_nil _).symm, id, fun call hmem => by cases hmem⟩
    · rcases hcontainer with hsame | ⟨hnone, -⟩
      · exact .inr hsame
      · exact .inl hnone
    · intro handle hhandle
      rcases hcontainer with hsame | ⟨-, handle', hsome, hbearing⟩
      · exact .inl (hsame ▸ hhandle)
      · rw [hsome] at hhandle
        exact .inr (Option.some.inj hhandle ▸ hbearing)

/-- A start in a world where the supervisor alone is launched goes on like that. -/
theorem World.Lone.starter (h : w.Lone p images) (who : Nat) {r : Request}
    {post : r.Answer → Progress → Prop} (hr : starter born images.embedded r p post)
    (hborn : ∀ descriptor handle, descriptor.name = Role.supervisor.containerName →
      (Backend.perform (.start descriptor) w.crew.backend).answer = .ok handle → born handle)
    (newsFirst : Bool) : w.Launches born images p newsFirst who r post := by
  cases r with
  | crew r =>
    cases r with
    | call c => exact h.starter_call hr hborn newsFirst
    | slot role =>
      cases role with
      | updater => exact hr.elim
      | supervisor =>
        refine .inr ⟨w.crew.roster.supervisor, p, rfl, h, advances_refl rfl, ?_⟩
        rw [h.roster]
        exact hr
    | setSlot role slot =>
      cases role with
      | updater => exact hr.elim
      | supervisor => exact h.starter_setSlot hr newsFirst
    | publish role =>
      cases role with
      | updater => exact hr.elim
      | supervisor => exact .inr ⟨(), p, rfl, { h with }, advances_refl rfl, hr⟩
    | log event => exact .inr ⟨(), p, rfl, { h with }, advances_refl rfl, hr⟩
    | unlock => exact .inr ⟨(), p, rfl, { h with }, advances_refl rfl, hr⟩
    | lock access =>
      cases hheld : (w.crew.lock.acquire who access).1 with
      | false => exact .inl ⟨by simp [choose, attempt, Crew.World.attempt, hheld], { h with }⟩
      | true =>
        exact .inr ⟨(), p, by simp [choose, attempt, Crew.World.attempt, hheld], { h with },
          advances_refl rfl, hr⟩
    | tryLock => exact hr.elim
    | lastKnown => exact hr.elim
  | check c => exact .inr ⟨w.probe.answer c, p, rfl, { h with }, advances_refl rfl, hr _⟩
  | embeddedImages =>
    refine .inr ⟨w.images.embedded, p, rfl, h, advances_refl rfl, ?_⟩
    rw [h.images]
    exact hr
  | spawn activity =>
    obtain ⟨hactivity, hpost⟩ := hr
    have hnot : activity ≠ .updates := by
      rintro rfl
      exact hactivity
    refine .inr ⟨(), p, rfl, ?_, advances_refl rfl, hpost⟩
    simp only [choose, attempt, noteSpawn, if_neg hnot]
    refine { h with spawned := fun other hmem => ?_ }
    rcases List.mem_append.1 hmem with hmem | hmem
    · exact h.spawned other hmem
    · rw [List.mem_singleton.1 hmem]
      exact hactivity
  | _ => exact hr.elim

/-- How a request of anybody else ends in such a world: the launch stays as it is. -/
def World.Watched (born : Handle → Prop) (image : String) (images : ImageStore) (p : Progress)
    (newsFirst : Bool) (who : Nat) (r : Request) (post : r.Answer → Progress → Prop)
    (w : World ρ) : Prop :=
  (w.choose newsFirst who r).2.Lone p images ∧ Advances born image who r p p ∧
    ∀ answer, (w.choose newsFirst who r).1 = some answer → post answer p

/-- Operations on the crew that are no launch read, and tend the container they find. -/
theorem World.Lone.watcher_crew (h : w.Lone p images) {r : Crew.Request}
    {post : r.Answer → Progress → Prop} (hr : watcher (.crew r) p post) (newsFirst : Bool) :
    w.Watched born image images p newsFirst who (.crew r) post := by
  cases r with
  | call c =>
    obtain ⟨hc, hpost⟩ := hr
    refine ⟨?_, advances_tend hc, fun answer _ => hpost answer⟩
    by_cases hgated : c.operation ∈ w.crew.gated
    · simpa only [choose, attempt, Crew.World.attempt, if_pos hgated] using h
    · simp only [choose, attempt, Crew.World.attempt, if_neg hgated]
      exact { h with }
  | slot role =>
    refine ⟨h, advances_refl rfl, fun answer hanswer => ?_⟩
    cases hanswer
    rw [h.roster]
    cases role <;> exact hr
  | lastKnown =>
    refine ⟨h, advances_refl rfl, fun answer hanswer => ?_⟩
    cases hanswer
    exact hr w.crew.lastKnown h.shown
  | setSlot role slot => exact hr.elim
  | publish role => exact hr.elim
  | tryLock => exact ⟨{ h with }, advances_refl rfl, fun answer _ => hr answer⟩
  | _ => exact ⟨{ h with }, advances_refl rfl, fun _ _ => hr⟩

/-- Everybody else in such a world leaves the launch as it is. -/
theorem World.Lone.watcher (h : w.Lone p images) (who : Nat) {r : Request}
    {post : r.Answer → Progress → Prop} (hr : watcher r p post) (newsFirst : Bool) :
    w.Watched born image images p newsFirst who r post := by
  cases r with
  | crew r => exact h.watcher_crew hr newsFirst
  | now => exact ⟨h, advances_refl rfl, fun answer _ => hr answer⟩
  | tickOrShutdown nextTick seen =>
    refine ⟨?_, advances_refl rfl, fun answer _ => hr answer⟩
    rcases choose_tickOrShutdown newsFirst who nextTick seen w with ⟨-, heq⟩ | heq <;>
      · rw [heq]
        exact h
  | shutdown seen => exact ⟨h, advances_refl rfl, fun answer _ => hr answer⟩
  | listen address =>
    refine ⟨?_, advances_refl rfl, fun answer _ => hr answer⟩
    simp only [choose, attempt]
    split <;> exact { h with }
  | leave address => exact ⟨{ h with }, advances_refl rfl, fun _ _ => hr⟩
  | claimUpdates => exact ⟨{ h with }, advances_refl rfl, fun answer _ => hr answer⟩
  | awaitUpdates => exact ⟨h, advances_refl rfl, fun _ _ => hr⟩
  | _ => exact hr.elim

end Worlds

/-! ## Scenes -/

/-- Whether a service runs the supervisor only: its slot is that of a launch by one task, which is
known exactly to that task, and everybody else reads. -/
structure Scene.Lone {ρ : Type} (born : Handle → Prop) (images : ImageStore)
    (launcher : Option Nat) (p : Progress) (s : Scene ρ) : Prop where
  world : s.world.Lone p images
  container : ∀ handle, p.slot.container = some handle → born handle
  image : p.slot.image = none ∨ p.slot.image = some images.embedded.supervisor
  plan : p.calls <+: Crew.firstLaunch
  idle : launcher = none → p = {}
  began : ∀ who, launcher = some who → who < s.tasks.length
  starts : ∀ who script, launcher = some who → s.tasks[who]? = some (some script) →
    script.Ensures (starter born images.embedded)
      (fun ending _ => ∃ result, ending = .result (.started result)) p
  watches : ∀ who script, launcher ≠ some who → s.tasks[who]? = some (some script) →
    script.Ensures watchers (fun ending _ => ending.OfSupervisor) p
  calls : ∀ call ∈ s.calls, Covers p.slot.container call.2
  launched : launching s.calls = p.calls
  ended : ∀ result ∈ s.ended, result.2.OfSupervisor

namespace Scene

variable {ρ : Type} {settings : Settings} {s : Scene ρ} {born : Handle → Prop}
  {images : ImageStore} {launcher : Option Nat} {p : Progress} {who : Nat}

theorem lone_fresh (born : Handle → Prop) (backend : ρ) (images : ImageStore) (probe : Probe) :
    (fresh backend images probe).Lone born images none {} where
  world := ⟨rfl, rfl, rfl, rfl, fun _ hmem => by cases hmem⟩
  container _ h := by cases h
  image := .inl rfl
  plan := List.nil_prefix
  idle _ := rfl
  began _ h := by cases h
  starts _ _ h := by cases h
  watches _ _ _ htask := by cases htask
  calls _ hmem := by cases hmem
  launched := rfl
  ended _ hmem := by cases hmem

/-- A task that ends, or goes on as a watcher, leaves everything else as it is. -/
theorem Lone.tasks_set (h : s.Lone born images launcher p) {task : Option (Action Ending)}
    (hstarts : launcher = some who → task = none)
    (hwatches : ∀ script, task = some script →
      script.Ensures watchers (fun ending _ => ending.OfSupervisor) p)
    {ended : List (Nat × Ending)} (hended : ∀ result ∈ ended, result.2.OfSupervisor) :
    Lone born images launcher p { s with tasks := s.tasks.set who task, ended } := by
  refine { h with began := ?_, starts := ?_, watches := ?_, ended := hended }
  · intro other hother
    exact Nat.lt_of_lt_of_eq (h.began other hother) List.length_set.symm
  · intro other script hother htask
    rcases task_of_set htask with ⟨rfl, hscript⟩ | ⟨-, htask⟩
    · rw [hstarts hother] at hscript
      cases hscript
    · exact h.starts other script hother htask
  · intro other script hother htask
    rcases task_of_set htask with ⟨rfl, hscript⟩ | ⟨-, htask⟩
    · exact hwatches script hscript.symm
    · exact h.watches other script hother htask

/-- Those who are new watch. -/
theorem Lone.tasks_append (h : s.Lone born images launcher p)
    {news : List (Option (Action Ending))}
    (hnews : ∀ script, some script ∈ news →
      script.Ensures watchers (fun ending _ => ending.OfSupervisor) p) :
    Lone born images launcher p { s with tasks := s.tasks ++ news } := by
  refine { h with began := ?_, starts := ?_, watches := ?_ }
  · intro who hwho
    have hlt := h.began who hwho
    rw [List.length_append]
    omega
  · intro who script hwho htask
    rcases task_of_append htask with htask | ⟨hle, -⟩
    · exact h.starts who script hwho htask
    · exact absurd (h.began who hwho) (Nat.not_lt_of_le hle)
  · intro who script hwho htask
    rcases task_of_append htask with htask | ⟨-, hmem⟩
    · exact h.watches who script hwho htask
    · exact hnews script hmem

/-- An answer to the one who launches may let the launch go on; an answer to anybody else does
not. -/
theorem Lone.answered (h : s.Lone born images launcher p) {r : Request} {answer : r.Answer}
    {rest : Action Ending} {w : World ρ} {p' : Progress} (hworld : w.Lone p' images)
    (hadvances : Advances born images.embedded.supervisor who r p p')
    (hstarts : launcher = some who → rest.Ensures (starter born images.embedded)
      (fun ending _ => ∃ result, ending = .result (.started result)) p')
    (hwatches : launcher ≠ some who →
      p' = p ∧ rest.Ensures watchers (fun ending _ => ending.OfSupervisor) p') :
    (s.answered who r answer rest w).Lone born images launcher p' where
  world := hworld
  container handle hhandle := by
    rcases hadvances.container handle hhandle with hbefore | hborn
    · exact h.container handle hbefore
    · exact hborn
  image := by
    rcases hadvances.image with hsame | hset
    · rw [hsame]
      exact h.image
    · exact hset
  plan := hadvances.plan h.plan
  idle hnone := by
    rw [(hwatches (by rw [hnone]; nofun)).1]
    exact h.idle hnone
  began other hother := Nat.lt_of_lt_of_eq (h.began other hother) List.length_set.symm
  starts other script hother htask := by
    rcases task_of_set htask with ⟨rfl, hscript⟩ | ⟨hne, htask⟩
    · cases hscript
      exact hstarts hother
    · -- somebody else was answered, and left the launch as it is
      have hwho : launcher ≠ some who := by
        rw [hother]
        exact fun heq => hne (Option.some.inj heq)
      rw [(hwatches hwho).1]
      exact h.starts other script hother htask
  watches other script hother htask := by
    rcases task_of_set htask with ⟨rfl, hscript⟩ | ⟨-, htask⟩
    · cases hscript
      exact (hwatches hother).2
    · exact (h.watches other script hother htask).stable Progress.Later.trans hadvances.later
  calls call hmem := by
    rcases List.mem_append.1 hmem with hmem | hmem
    · exact (h.calls call hmem).later hadvances.later
    · exact hadvances.covers call hmem
  launched := by
    show launching (s.calls ++ r.calls who) = p'.calls
    rw [launching_append, h.launched, hadvances.calls]
  ended := h.ended

section

variable [Backend ρ]

/-- A task that is at its end ends, or goes on with its next round. -/
theorem Lone.goOn_done (h : s.Lone born images launcher p) (hauto : settings.autoUpdate = false)
    {ending : Ending} (htask : s.tasks[who]? = some (some (.done ending))) (newsFirst : Bool) :
    (s.goOn settings who newsFirst).Lone born images launcher p := by
  by_cases hwho : launcher = some who
  · -- the start ends with its result
    obtain ⟨result, rfl⟩ := h.starts who _ hwho htask
    rw [goOn_of_end htask rfl]
    refine h.tasks_set (fun _ => rfl) nofun fun result hmem => ?_
    rcases List.mem_cons.1 hmem with rfl | hmem
    · trivial
    · exact h.ended result hmem
  · have hending : ending.OfSupervisor := h.watches who _ hwho htask
    cases hresume : (World.host ρ settings).resume ending with
    | some script =>
      -- a round is followed by one that watches as well
      rw [goOn_of_resume htask hresume]
      refine h.tasks_set (fun heq => absurd heq hwho) (fun script' hscript => ?_) h.ended
      cases hscript
      rcases ending with result | (_ | activity)
      · cases hresume
      · cases hresume
      · cases hresume
        exact watches_round hauto hending
    | none =>
      rw [goOn_of_end htask hresume]
      refine h.tasks_set (fun _ => rfl) nofun fun result hmem => ?_
      rcases List.mem_cons.1 hmem with rfl | hmem
      · exact hending
      · exact h.ended result hmem

/-- A task goes on. -/
theorem Lone.goOn (h : s.Lone born images launcher p) (hauto : settings.autoUpdate = false)
    (hborn : ∀ descriptor handle, descriptor.name = Role.supervisor.containerName →
      (Backend.perform (.start descriptor) s.world.crew.backend).answer = .ok handle → born handle)
    (who : Nat) (newsFirst : Bool) :
    ∃ p', (s.goOn settings who newsFirst).Lone born images launcher p' := by
  rcases htask : s.tasks[who]? with _ | _ | ending | ⟨r, next⟩
  · refine ⟨p, ?_⟩
    unfold Scene.goOn
    rw [htask]
    exact h
  · refine ⟨p, ?_⟩
    rw [goOn_ended htask]
    exact h
  · exact ⟨p, h.goOn_done hauto htask newsFirst⟩
  · by_cases hwho : launcher = some who
    · have hstarts := h.starts who _ hwho htask
      rcases h.world.starter who hstarts hborn newsFirst with
        ⟨hnone, hworld⟩ | ⟨answer, p', hsome, hworld, hadvances, hnext⟩
      · rcases goOn_ask htask newsFirst with ⟨-, heq⟩ | ⟨answer, hsome, -⟩
        · exact ⟨p, by rw [heq]; exact { h with world := hworld }⟩
        · rw [hnone] at hsome
          cases hsome
      · have hchoose : s.world.choose newsFirst who r =
            (some answer, (s.world.choose newsFirst who r).2) := Prod.ext hsome rfl
        have heq : s.goOn settings who newsFirst =
            s.answered who r answer (next answer) (s.world.choose newsFirst who r).2 :=
          goOn_of_answer htask hchoose
        refine ⟨p', ?_⟩
        rw [heq]
        exact h.answered hworld hadvances (fun _ => hnext) fun hnot => absurd hwho hnot
    · have hwatches := h.watches who _ hwho htask p (.refl p)
      obtain ⟨hworld, hadvances, hnext⟩ :
          _ ∧ Advances born images.embedded.supervisor who r p p ∧ _ :=
        h.world.watcher who hwatches newsFirst
      refine ⟨p, ?_⟩
      rcases goOn_ask htask newsFirst with ⟨-, heq⟩ | ⟨answer, hsome, heq⟩
      · rw [heq]
        exact { h with world := hworld }
      · rw [heq]
        exact h.answered hworld hadvances (fun heq => absurd heq hwho) fun _ =>
          ⟨rfl, hnext answer hsome⟩

/-- Where nobody launches anything, the task of a start becomes the one that does. -/
theorem Lone.begins (h : s.Lone born images none p) (hauto : settings.autoUpdate = false) :
    (s.meet settings (.uses .start)).Lone born images (some s.tasks.length) p := by
  have hidle : p = {} := h.idle rfl
  have hlength : (s.meet settings (.uses .start)).tasks.length = s.tasks.length + 1 :=
    List.length_append
  refine { h with idle := nofun, began := ?_, starts := ?_, watches := ?_ }
  · intro who hwho
    rw [← Option.some.inj hwho, hlength]
    exact Nat.lt_succ_self _
  · intro who script hwho htask
    rw [← Option.some.inj hwho] at htask
    have hscript : script = Use.start.task settings := by
      have hget : (s.tasks ++ [some (Use.start.task settings)])[s.tasks.length]? =
          some (some (Use.start.task settings)) := List.getElem?_concat_length
      exact Option.some.inj (Option.some.inj (htask.symm.trans hget))
    subst hscript hidle
    refine ensures_map.2 (ensures_map.2 ?_)
    exact (starts_start hauto).mono (starter_monotone born _) fun result _ _ => ⟨result, rfl⟩
  · intro who script hwho htask
    rcases task_of_append htask with htask | ⟨hle, -⟩
    · exact h.watches who script nofun htask
    · -- nobody but the start is new
      have hlt := (List.getElem?_eq_some_iff.1 htask).1
      have heq : s.tasks.length = who := by omega
      exact absurd (congrArg some heq) hwho

/-- One more occurrence, which starts the service only if nobody did. -/
theorem Lone.meet (h : s.Lone born images launcher p) (hauto : settings.autoUpdate = false)
    (hborn : ∀ descriptor handle, descriptor.name = Role.supervisor.containerName →
      (Backend.perform (.start descriptor) s.world.crew.backend).answer = .ok handle → born handle)
    {occurrence : Occurrence ρ} (hstart : occurrence = .uses .start → launcher = none) :
    ∃ launcher' p', (occurrence ≠ .uses .start → launcher' = launcher) ∧
      (s.meet settings occurrence).Lone born (images.steps (imageSteps [occurrence])).2
        launcher' p' := by
  cases occurrence with
  | uses use =>
    by_cases huse : use = .start
    · subst huse
      obtain rfl : launcher = none := hstart rfl
      exact ⟨some s.tasks.length, p, fun hnot => absurd rfl hnot, h.begins hauto⟩
    · refine ⟨launcher, p, fun _ => rfl, h.tasks_append fun script hmem => ?_⟩
      rw [Option.some.inj (List.mem_singleton.1 hmem)]
      exact watches_task hauto huse
  | adopts =>
    have hlone : Lone born images launcher p { s with world := { s.world with spawned := [] } } :=
      { h with world := { h.world with spawned := fun _ hmem => by cases hmem } }
    refine ⟨launcher, p, fun _ => rfl, hlone.tasks_append fun script hmem => ?_⟩
    obtain ⟨script', hscripts, hscript⟩ := List.mem_map.1 hmem
    obtain ⟨activity, hspawned, rfl⟩ := List.mem_map.1 hscripts
    rw [← Option.some.inj hscript]
    exact watches_round hauto (h.world.spawned activity hspawned)
  | goesOn who newsFirst =>
    obtain ⟨p', hp'⟩ := h.goOn hauto hborn who newsFirst
    exact ⟨launcher, p', fun _ => rfl, hp'⟩
  | images step =>
    refine ⟨launcher, p, fun _ => rfl, ?_⟩
    have hembedded := ImageStore.embedded_step images step
    have hworld : World.Lone p (images.step step).2
        { s.world with images := (s.world.images.step step).2 } :=
      { h.world with images := by rw [h.world.images] }
    refine { h with world := hworld, image := ?_, starts := ?_ }
    · show _ ∨ _ = some (images.step step).2.embedded.supervisor
      rw [hembedded]
      exact h.image
    · show ∀ who script, _ → _ → Ensures (starter born (images.step step).2.embedded) _ script p
      rw [hembedded]
      exact h.starts
  | sends value =>
    refine ⟨launcher, p, fun _ => rfl, ?_⟩
    show (s.step settings (.sends value)).Lone born images launcher p
    simp only [Scene.step]
    split
    · exact { h with world := { h.world with } }
    · exact h
  | _ => exact ⟨launcher, p, fun _ => rfl, { h with world := { h.world with } }⟩

/-- The service after some occurrences, of which one starts it at most. -/
theorem lone_live (hauto : settings.autoUpdate = false) (born : Handle → Prop) (backend : ρ)
    (images : ImageStore) (probe : Probe) (occurrences : List (Occurrence ρ))
    (hborn : ∀ before descriptor handle, before <+: occurrences →
      descriptor.name = Role.supervisor.containerName →
      (Backend.perform (.start descriptor)
        ((fresh backend images probe).live settings before).world.crew.backend).answer =
          .ok handle →
      born handle)
    (hstart : (uses occurrences).count .start ≤ 1) :
    ∃ launcher p, (launcher ≠ none → .start ∈ uses occurrences) ∧
      ((fresh backend images probe).live settings occurrences).Lone born
        (images.steps (imageSteps occurrences)).2 launcher p := by
  induction occurrences using List.reverseRecOn with
  | nil => exact ⟨none, {}, fun h => absurd rfl h, lone_fresh born backend images probe⟩
  | append_singleton before occurrence ih =>
    have hprefix : before <+: before ++ [occurrence] := List.prefix_append _ _
    have huses : uses (before ++ [occurrence]) = uses before ++ uses [occurrence] :=
      List.filterMap_append
    have hsteps : imageSteps (before ++ [occurrence]) =
        imageSteps before ++ imageSteps [occurrence] := List.filterMap_append
    rw [huses, List.count_append] at hstart
    obtain ⟨launcher, p, hlauncher, hlone⟩ := ih
      (fun earlier descriptor handle hearlier => hborn earlier descriptor handle
        (hearlier.trans hprefix)) (by omega)
    -- a second start is too many
    have hfirst : occurrence = .uses .start → launcher = none := by
      rintro rfl
      by_contra hsome
      have hcount : 0 < (uses before).count .start := List.count_pos_iff.2 (hlauncher hsome)
      have hone : (uses [(Occurrence.uses .start : Occurrence ρ)]).count .start = 1 := rfl
      omega
    obtain ⟨launcher', p', hsame, hnext⟩ :=
      hlone.meet hauto (hborn before · · hprefix) hfirst
    refine ⟨launcher', p', fun hsome => ?_, ?_⟩
    · rw [huses]
      by_cases hoccurrence : occurrence = .uses .start
      · subst hoccurrence
        exact List.mem_append_right _ List.mem_cons_self
      · rw [hsame hoccurrence] at hsome
        exact List.mem_append_left _ (hlauncher hsome)
    · rw [hsteps, ImageStore.steps_append, live_append]
      exact hnext

end

end Scene

/-- Without auto-update a service that is started once at most keeps to the supervisor, in every
run: whatever the containers do, whoever stops the service or asks for its health, and wherever the
start fails.

- The slot of the updater stays as it was, and so does its copy.
- Every call is about no container in particular, or about the supervisor: it starts a container of
  that name, or it is about the container of the slot, which is one that the backend gave for such a
  start in this run.
- The service takes nothing from the image store: the store is as those outside left it.
- The supervisor is launched once at most, from the image that is built in.
- Health is that of the supervisor, and tells of the updater that it is neither expected nor
  running.
-/
theorem supervisor_only {ρ : Type} [Backend ρ] {settings : Settings}
    (hauto : settings.autoUpdate = false) (backend : ρ) (images : ImageStore) (probe : Probe)
    (occurrences : List (Occurrence ρ)) (hstart : (uses occurrences).count .start ≤ 1) :
    let fresh := Scene.fresh backend images probe
    let s := fresh.live settings occurrences
    let supervisor := s.world.crew.roster.supervisor
    (s.world.crew.roster.updater = {} ∧ s.world.crew.lastKnown.updater = {}) ∧
    ((∀ call ∈ s.calls, Covers supervisor.container call.2) ∧
      ∀ handle, supervisor.container = some handle → ∃ before descriptor, before <+: occurrences ∧
        descriptor.name = Role.supervisor.containerName ∧
        (Backend.perform (.start descriptor)
          (fresh.live settings before).world.crew.backend).answer = .ok handle) ∧
    (s.world.images = (images.steps (imageSteps occurrences)).2 ∧ s.world.updates = .absent) ∧
    (launching s.calls <+: Crew.firstLaunch ∧
      (supervisor.image = none ∨ supervisor.image = some images.embedded.supervisor)) ∧
    (∀ who report, (who, .result (.report report)) ∈ s.ended →
      ∃ health, report.OfSupervisor health ∧ report.isHealthy = health.running) ∧
    ∀ who response, (who, .result (.response response)) ∈ s.ended →
      ∃ timestamp method target report health, HealthReport.OfSupervisor report health ∧
        report.isHealthy = health.running ∧
        response = Health.respond timestamp report (Health.route method target) := by
  intro fresh s supervisor
  let born : Handle → Prop := fun handle => ∃ before descriptor, before <+: occurrences ∧
    descriptor.name = Role.supervisor.containerName ∧
    (Backend.perform (.start descriptor)
      (fresh.live settings before).world.crew.backend).answer = .ok handle
  obtain ⟨launcher, p, -, h⟩ := Scene.lone_live hauto born backend images probe occurrences
    (fun before descriptor handle hbefore hname hanswer =>
      ⟨before, descriptor, hbefore, hname, hanswer⟩) hstart
  have hslot : supervisor = p.slot := congrArg Crew.Roster.supervisor h.world.roster
  refine ⟨⟨congrArg Crew.Roster.updater h.world.roster, h.world.shown⟩, ⟨?_, ?_⟩,
    ⟨h.world.images, h.world.updates⟩, ⟨?_, ?_⟩, ?_, ?_⟩
  · rw [hslot]
    exact h.calls
  · rw [hslot]
    exact h.container
  · rw [h.launched]
    exact h.plan
  · rw [hslot, ← images.embedded_steps (imageSteps occurrences)]
    exact h.image
  · intro who report hmem
    obtain ⟨health, hreport⟩ := h.ended _ hmem
    exact ⟨health, hreport, hreport.isHealthy⟩
  · intro who response hmem
    obtain ⟨timestamp, method, target, report, health, hreport, heq⟩ := h.ended _ hmem
    exact ⟨timestamp, method, target, report, health, hreport, hreport.isHealthy, heq⟩

namespace Sample

/-- A development machine without auto-update. -/
def withoutUpdates : Settings := { Crew.developmentSettings with autoUpdate := false }

/-- The service is started, its container crashes and is restarted at the first tick, somebody asks
for a report, and the service is stopped; meanwhile newer images are announced. -/
def oneRole : List (Occurrence Container.Memory) :=
  .uses .start :: List.replicate 40 (.goesOn 0 false) ++
  [.adopts, .images (.publish 0 (Crew.Sample.refs "sup:v1")),
    .changes (.setState "ctr_000000000000" .exited)] ++
  List.replicate 4 (.goesOn 2 false) ++ .elapses 10000 :: List.replicate 10 (.goesOn 2 false) ++
  .uses .report :: List.replicate 10 (.goesOn 3 false) ++
  .uses .stop :: List.replicate 10 (.goesOn 4 false)

end Sample

/-- A crash, a report and a stop are the supervisor's alone. -/
theorem supervisor_only_restarted :
    let s := (Scene.fresh ({} : Container.Memory) (.seeded (Crew.Sample.refs "sup:v0"))
      (.failingAt [] none)).live Sample.withoutUpdates Sample.oneRole
    Sample.withoutUpdates.autoUpdate = false ∧ (uses Sample.oneRole).count .start ≤ 1 ∧
    s.calls.map (fun call => (call.1, call.2.operation, call.2.target)) =
      [(0, .list, ""), (0, .nuke, ""), (0, .ensureImage, "sup:v0"),
        (0, .start, "node-runner-supervisor"), (0, .awaitStart, "ctr_000000000000"),
        (2, .inspect, "ctr_000000000000"), (2, .restart, "ctr_000000000000"),
        (3, .inspect, "ctr_000000000000"), (4, .stop, "ctr_000000000000")] ∧
    s.world.crew.roster.updater = {} ∧
    ∀ call ∈ s.calls, Covers s.world.crew.roster.supervisor.container call.2 := by
  have hauto : Sample.withoutUpdates.autoUpdate = false := rfl
  have hstart : (uses Sample.oneRole).count .start ≤ 1 := by decide
  obtain ⟨⟨hupdater, -⟩, ⟨hcalls, -⟩, -⟩ := supervisor_only hauto ({} : Container.Memory)
    (.seeded (Crew.Sample.refs "sup:v0")) (.failingAt [] none) Sample.oneRole hstart
  refine ⟨hauto, hstart, ?_, hupdater, hcalls⟩
  decide +kernel

end Caretaker.Service
