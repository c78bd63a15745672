import Mathlib.Data.List.Basic
import Caretaker.Container.Memory
import Caretaker.Proofs.Alone
import Caretaker.Proofs.Attended
import Caretaker.Proofs.Heard

/-!
# Health on live evidence

Who asks for the health of the service is told that it is fine just if that was seen for this very
request: the lock could be read at once, and the container of each expected role was asked about
then and said to run.  In all other cases the service is told to be degraded, also in the middle of
an update, and nobody waits for the lock to tell so.

A request for health tries the lock first.  If it has the lock it looks at every container that the
roster knows of, and if it does not it looks at none.

Main definitions:

- `Consults`: the whole dialogues of a request for health.
- `SeenRunning`: a role that was seen running in such a dialogue.
- `World.Says`: what the answers in it say of the world.

Main statements:

- `report_of_leads`: a request for health consults what there is, and its report tells of each role
  whether it was seen running.
- `looks_checkHealth`, `within_checkHealth`: a few requests do, and none waits for the lock.
- `health_on_evidence`: so health is told on live evidence, whatever else goes on.
-/

namespace Caretaker

/-- Whether a role should run in a deployment. -/
def Settings.Expects (settings : Settings) (role : Role) : Prop :=
  role = .supervisor ∨ settings.autoUpdate = true

namespace Service

open Container (Backend)
open Script Service.Action

/-- Whether a role was seen running: the lock could be read at once, and the container that the role
had then was asked about and said to run. -/
def SeenRunning (role : Role) (dialogue : List (Exchange signature)) : Prop :=
  ⟨.crew .tryLock, true⟩ ∈ dialogue ∧
    ∃ slot handle info, slot.container = some handle ∧ info.state = .running ∧
      [⟨.crew (.slot role), slot⟩, ⟨.crew (.call (.inspect handle.id)), .ok info⟩] <:+: dialogue

/-- What a request for health asks for: nothing that waits for the lock, and of the containers only
how they are. -/
def Request.Looks : Request → Prop
  | .crew .tryLock | .crew .unlock | .crew (.slot _) | .crew .lastKnown | .crew (.log _) => True
  | .crew (.call (.inspect _)) => True
  | _ => False

/-- What an exchange of a request for health says of the world: whether the lock could be read at
once, what was in a slot or in the copy of the roster, and how a container was. -/
def World.Says {ρ : Type} [Backend ρ] : Exchange signature → World ρ → Prop
  | ⟨.crew .tryLock, held⟩, w => held = w.crew.lock.isReadable
  | ⟨.crew (.slot role), slot⟩, w => slot = w.crew.roster.slot role
  | ⟨.crew .lastKnown, roster⟩, w => roster = w.crew.lastKnown
  | ⟨.crew (.call (.inspect id)), answer⟩, w =>
    answer = (Backend.perform (.inspect id) w.crew.backend).answer
  | _, _ => True

/-- What a world gives for an answer is so. -/
theorem World.Gives.tells {ρ : Type} [Backend ρ] {w : World ρ} {who : Nat}
    {exchange : Exchange signature} (h : w.Gives who exchange)
    (hlooks : exchange.request.Looks) : w.Says exchange := by
  obtain ⟨newsFirst, hanswer⟩ := h
  obtain ⟨r, answer⟩ := exchange
  cases r with
  | crew r =>
    cases r with
    | tryLock =>
      have hheld : (w.crew.lock.tryShared who).1 = answer := Option.some.inj hanswer
      show answer = w.crew.lock.isReadable
      rw [← hheld, Crew.FairLock.tryShared]
      cases w.crew.lock.isReadable <;> rfl
    | slot role => exact (Option.some.inj hanswer).symm
    | lastKnown => exact (Option.some.inj hanswer).symm
    | call c =>
      cases c with
      | inspect id =>
        have hcall : (w.crew.attempt who (.call (.inspect id))).1 = some answer := hanswer
        simp only [Crew.World.attempt] at hcall
        split at hcall
        · cases hcall
        · exact (Option.some.inj hcall).symm
      | _ => exact hlooks.elim
    | lock access => exact hlooks.elim
    | setSlot role slot => exact hlooks.elim
    | publish role => exact hlooks.elim
    | _ => trivial
  | _ => exact hlooks.elim

/-! ## The status of a role -/

/-- The exchanges after a slot was read, and how its container was seen then. -/
inductive Inspected (slot : Crew.Slot) :
    List (Exchange signature) → Option ContainerState → Prop where
  | vacant (hvacant : slot.container = none) : Inspected slot [] none
  | answered {handle : Handle} {info : ContainerInfo} (hfilled : slot.container = some handle) :
    Inspected slot [⟨.crew (.call (.inspect handle.id)), .ok info⟩] (some info.state)
  | failed {handle : Handle} {cause : Container.Fault} {event : Event}
      (hfilled : slot.container = some handle) :
    Inspected slot [⟨.crew (.call (.inspect handle.id)), .error cause⟩, ⟨.crew (.log event), ()⟩]
      none

section Status

variable {role : Role} {slot : Crew.Slot} {state : Option ContainerState}
  {dialogue first asked after : List (Exchange signature)}

/-- The status of a role comes from its slot and from what its container is seen to be. -/
theorem leads_statusLocked {status : Crew.RoleStatus}
    (h : Leads (ofCrew (Crew.statusLocked role)) dialogue (.done status)) :
    ∃ slot asked state, dialogue = ⟨.crew (.slot role), slot⟩ :: asked ∧
      Inspected slot asked state ∧ status = slot.status role state := by
  obtain ⟨slot, asked, rfl, hslot⟩ := Leads.of_ask (S := signature) (r := .crew (.slot role)) h
  refine ⟨slot, asked, ?_⟩
  obtain ⟨image, _ | handle, phase⟩ := slot
  · obtain ⟨rfl, hstatus⟩ := leads_done.1 hslot
    cases hstatus
    exact ⟨none, rfl, .vacant rfl, rfl⟩
  · obtain ⟨answer, later, rfl, hanswer⟩ :=
      Leads.of_ask (S := signature) (r := .crew (.call (.inspect handle.id))) hslot
    cases answer with
    | ok info =>
      obtain ⟨rfl, hstatus⟩ := leads_done.1 hanswer
      cases hstatus
      exact ⟨some info.state, rfl, .answered rfl, rfl⟩
    | error cause =>
      obtain ⟨_, _, rfl, hlogged⟩ := Leads.of_ask (S := signature) (r := .crew (.log _)) hanswer
      obtain ⟨rfl, hstatus⟩ := leads_done.1 hlogged
      cases hstatus
      exact ⟨none, rfl, .failed rfl, rfl⟩

/-- The statuses of both roles come one after the other, the updater's first. -/
theorem leads_statusesLocked {statuses : List Crew.RoleStatus}
    (h : Leads (ofCrew Crew.statusesLocked) dialogue (.done statuses)) :
    ∃ first second updater supervisor, dialogue = first ++ second ∧
      statuses = [updater, supervisor] ∧
      Leads (ofCrew (Crew.statusLocked .updater)) first (.done updater) ∧
      Leads (ofCrew (Crew.statusLocked .supervisor)) second (.done supervisor) := by
  simp only [Crew.statusesLocked, Role.all, List.mapM_cons, List.mapM_nil, ofCrew_bind] at h
  obtain ⟨first, later, updater, rfl, hupdater, h⟩ := h.of_bind_done
  obtain ⟨second, nothing, others, rfl, h, hnothing⟩ := h.of_bind_done
  obtain ⟨second, nothing', supervisor, rfl, hsupervisor, hothers⟩ := h.of_bind_done
  obtain ⟨rfl, hothers⟩ := leads_done.1 hothers
  obtain ⟨rfl, hstatuses⟩ := leads_done.1 hnothing
  cases hothers
  cases hstatuses
  exact ⟨first, second, updater, supervisor, by simp, rfl, hupdater, hsupervisor⟩

/-- No slot is read while a container is asked about. -/
theorem Inspected.no_slot (h : Inspected slot asked state) :
    ∀ exchange ∈ asked, exchange.request ≠ .crew (.slot role) := by
  intro exchange hmem
  cases h with
  | vacant => cases hmem
  | answered =>
    rw [List.mem_singleton.1 hmem]
    exact nofun
  | failed =>
    rcases List.mem_cons.1 hmem with rfl | hmem
    · exact nofun
    · rw [List.mem_singleton.1 hmem]
      exact nofun

/-- A container is seen running when the exchange right after its slot was read says so. -/
theorem Inspected.running_iff (h : Inspected slot asked state)
    (after : List (Exchange signature)) :
    (∃ handle info later, slot.container = some handle ∧ info.state = .running ∧
        asked ++ after = ⟨.crew (.call (.inspect handle.id)), .ok info⟩ :: later) ↔
      state = some .running := by
  constructor
  · rintro ⟨handle, info, later, hfilled, hrunning, heq⟩
    cases h with
    | vacant hvacant =>
      rw [hvacant] at hfilled
      cases hfilled
    | answered hfilled' =>
      have hhead := (List.cons.inj heq).1
      rw [hfilled'] at hfilled
      cases hfilled
      cases hhead
      rw [hrunning]
    | failed hfilled' =>
      have hhead := (List.cons.inj heq).1
      rw [hfilled'] at hfilled
      cases hfilled
      cases hhead
  · intro hstate
    cases h with
    | vacant => cases hstate
    | answered hfilled =>
      injection hstate with hstate
      exact ⟨_, _, after, hfilled, hstate, rfl⟩
    | failed => cases hstate

/-- Where the lock was had and the slot of a role is read once, the role was seen running if it was
right after that. -/
theorem seenRunning_iff (hheld : ⟨.crew .tryLock, true⟩ ∈ first)
    (hfirst : ∀ exchange ∈ first, exchange.request ≠ .crew (.slot role))
    (hasked : Inspected slot asked state)
    (hafter : ∀ exchange ∈ after, exchange.request ≠ .crew (.slot role)) :
    SeenRunning role (first ++ ⟨.crew (.slot role), slot⟩ :: (asked ++ after)) ↔
      state = some .running := by
  rw [← hasked.running_iff after]
  constructor
  · rintro ⟨-, slot', handle, info, hfilled, hrunning, before, later, heq⟩
    have hrest : ∀ exchange ∈ asked ++ after, exchange.request ≠ .crew (.slot role) := by
      intro exchange hmem
      rcases List.mem_append.1 hmem with hmem | hmem
      · exact hasked.no_slot exchange hmem
      · exact hafter exchange hmem
    -- the slot is read nowhere else, so both lists are cut at the same place
    have hcut : before ++ ⟨.crew (.slot role), slot'⟩ ::
        (⟨.crew (.call (.inspect handle.id)), .ok info⟩ :: later) =
          first ++ ⟨.crew (.slot role), slot⟩ :: (asked ++ after) := by
      rw [← heq]
      simp
    have hnotFirst : (⟨.crew (.slot role), slot'⟩ : Exchange signature) ∉ first :=
      fun hmem => hfirst _ hmem rfl
    have hnotRest : (⟨.crew (.slot role), slot'⟩ : Exchange signature) ∉ asked ++ after :=
      fun hmem => hrest _ hmem rfl
    obtain ⟨-, hslot, hlater⟩ := (List.append_cons_inj_of_notMem hnotFirst hnotRest).1 hcut.symm
    cases hslot
    exact ⟨handle, info, later, hfilled, hrunning, hlater⟩
  · rintro ⟨handle, info, later, hfilled, hrunning, heq⟩
    refine ⟨List.mem_append_left _ hheld, slot, handle, info, hfilled, hrunning, first, later, ?_⟩
    rw [heq]
    simp

/-- While the lock is held each role is looked at in turn, and seen running if its container is. -/
theorem seenRunning_locked {slot' : Crew.Slot} {asked' : List (Exchange signature)}
    {state' : Option ContainerState} (hasked : Inspected slot asked state)
    (hasked' : Inspected slot' asked' state') :
    let dialogue : List (Exchange signature) :=
      ⟨.crew .tryLock, true⟩ ::
        (⟨.crew (.slot .updater), slot⟩ :: asked ++
          ⟨.crew (.slot .supervisor), slot'⟩ :: asked' ++ [⟨.crew .unlock, ()⟩])
    (SeenRunning .updater dialogue ↔ state = some .running) ∧
      (SeenRunning .supervisor dialogue ↔ state' = some .running) := by
  intro dialogue
  constructor
  · have hcut : dialogue = [⟨.crew .tryLock, true⟩] ++ ⟨.crew (.slot .updater), slot⟩ ::
        (asked ++ (⟨.crew (.slot .supervisor), slot'⟩ :: asked' ++
          [⟨.crew .unlock, ()⟩])) := by
      simp [dialogue]
    rw [hcut]
    refine seenRunning_iff List.mem_cons_self ?_ hasked ?_
    · intro exchange hmem
      rw [List.mem_singleton.1 hmem]
      exact nofun
    · intro exchange hmem
      rcases List.mem_append.1 hmem with hmem | hmem
      · rcases List.mem_cons.1 hmem with rfl | hmem
        · exact nofun
        · exact hasked'.no_slot exchange hmem
      · rw [List.mem_singleton.1 hmem]
        exact nofun
  · have hcut : dialogue =
        (⟨.crew .tryLock, true⟩ :: ⟨.crew (.slot .updater), slot⟩ :: asked) ++
          ⟨.crew (.slot .supervisor), slot'⟩ :: (asked' ++ [⟨.crew .unlock, ()⟩]) := by
      simp [dialogue]
    rw [hcut]
    refine seenRunning_iff List.mem_cons_self ?_ hasked' ?_
    · intro exchange hmem
      rcases List.mem_cons.1 hmem with rfl | hmem
      · exact nofun
      · rcases List.mem_cons.1 hmem with rfl | hmem
        · exact nofun
        · exact hasked.no_slot exchange hmem
    · intro exchange hmem
      rw [List.mem_singleton.1 hmem]
      exact nofun

theorem isRunning_status (slot : Crew.Slot) (role : Role) (state : Option ContainerState) :
    (slot.status role state).isRunning = true ↔ state = some .running := decide_eq_true_iff

end Status

/-! ## What a request consults -/

/-- The whole dialogues of a request for health. -/
inductive Consults : List (Exchange signature) → Prop where
  /-- The lock cannot be read at once, so only the copy of the roster is read. -/
  | refused (roster : Crew.Roster) :
      Consults [⟨.crew .tryLock, false⟩, ⟨.crew .lastKnown, roster⟩]
  /-- The lock is had, so both slots are read, the updater's first, and the container of each that
  has one is asked about. -/
  | held {slot slot' : Crew.Slot} {asked asked' : List (Exchange signature)}
      {state state' : Option ContainerState} (hupdater : Inspected slot asked state)
      (hsupervisor : Inspected slot' asked' state') :
      Consults (⟨.crew .tryLock, true⟩ ::
        (⟨.crew (.slot .updater), slot⟩ :: asked ++
          ⟨.crew (.slot .supervisor), slot'⟩ :: asked' ++ [⟨.crew .unlock, ()⟩]))

/-! ## Reports -/

section Reports

variable {settings : Settings} {dialogue : List (Exchange signature)} {report : HealthReport}

/-- The status of a role among those of both. -/
def statusOf (updater supervisor : Crew.RoleStatus) : Role → Crew.RoleStatus
  | .updater => updater
  | .supervisor => supervisor

/-- A request for health consults what there is, and its report tells of both roles, the updater
first, and of each whether it was seen running. -/
theorem report_of_leads (h : Leads (checkHealth settings) dialogue (.done report)) :
    Consults dialogue ∧ ∃ statuses : Role → Crew.RoleStatus,
      report.roles = Role.all.map (fun role => roleHealth settings (statuses role)) ∧
      ∀ role, (statuses role).role = role ∧
        ((statuses role).isRunning = true ↔ SeenRunning role dialogue) := by
  obtain ⟨told, made, list, rfl, htold, hmade⟩ := Leads.of_bind_done h
  obtain ⟨rfl, hreport⟩ := leads_done.1 hmade
  cases hreport
  rw [List.append_nil]
  obtain ⟨held, rest, rfl, hheld⟩ := Leads.of_ask (S := signature) (r := .crew .tryLock) htold
  cases held with
  | false =>
    -- the lock is taken, so nobody is asked about
    obtain ⟨roster, rest, rfl, hroster⟩ :=
      Leads.of_ask (S := signature) (r := .crew .lastKnown) hheld
    obtain ⟨rfl, hlist⟩ := leads_done.1 hroster
    cases hlist
    refine ⟨.refused roster, fun role => (roster.slot role).status role none, rfl,
      fun role => ⟨rfl, ?_⟩⟩
    constructor
    · intro hrunning
      cases hrunning
    · rintro ⟨hmem, -⟩
      rcases List.mem_cons.1 hmem with heq | hmem
      · cases heq
      · cases List.mem_singleton.1 hmem
  | true =>
    have hbody : Leads (ofCrew Crew.statusesLocked >>= fun list =>
        ofCrew (Crew.Transaction.unlock >>= fun _ => Script.done list)) rest (.done list) := by
      rw [← Action.ofCrew_bind]
      exact hheld
    obtain ⟨looked, gave, list', rfl, hlooked, hgave⟩ := Leads.of_bind_done hbody
    obtain ⟨_, done, rfl, hend⟩ := Leads.of_ask (S := signature) (r := .crew .unlock) hgave
    obtain ⟨rfl, hlist⟩ := leads_done.1 hend
    cases hlist
    obtain ⟨_, _, updater, supervisor, rfl, rfl, hupdater, hsupervisor⟩ :=
      leads_statusesLocked hlooked
    obtain ⟨slot, asked, state, rfl, hasked, rfl⟩ := leads_statusLocked hupdater
    obtain ⟨slot', asked', state', rfl, hasked', rfl⟩ := leads_statusLocked hsupervisor
    obtain ⟨hseen, hseen'⟩ := seenRunning_locked hasked hasked'
    refine ⟨.held hasked hasked',
      statusOf (slot.status .updater state) (slot'.status .supervisor state'), rfl,
      fun role => ?_⟩
    cases role with
    | updater => exact ⟨rfl, (isRunning_status slot .updater state).trans hseen.symm⟩
    | supervisor => exact ⟨rfl, (isRunning_status slot' .supervisor state').trans hseen'.symm⟩

/-- A role is expected as the settings say. -/
theorem expected_roleHealth {status : Crew.RoleStatus} :
    (roleHealth settings status).expected = true ↔ settings.Expects status.role := by
  simp [roleHealth, Settings.Expects]

/-- The service is healthy when every role that should run was seen running. -/
theorem isHealthy_iff (h : Leads (checkHealth settings) dialogue (.done report)) :
    report.isHealthy = true ↔ ∀ role, settings.Expects role → SeenRunning role dialogue := by
  obtain ⟨-, statuses, hroles, htold⟩ := report_of_leads h
  have hall : report.isHealthy = true ↔
      ∀ r ∈ report.roles, r.expected = true → r.running = true := by
    simp [HealthReport.isHealthy, Bool.or_eq_true, Classical.or_iff_not_imp_left]
  rw [hall, hroles]
  constructor
  · intro h role hexpects
    have hmem : roleHealth settings (statuses role) ∈
        Role.all.map fun role => roleHealth settings (statuses role) :=
      List.mem_map_of_mem (by cases role <;> decide)
    have hexpected : (roleHealth settings (statuses role)).expected = true := by
      rw [expected_roleHealth, (htold role).1]
      exact hexpects
    exact (htold role).2.1 (h _ hmem hexpected)
  · intro h r hmem hexpected
    obtain ⟨role, -, rfl⟩ := List.mem_map.1 hmem
    rw [expected_roleHealth, (htold role).1] at hexpected
    exact (htold role).2.2 (h role hexpected)

end Reports

/-! ## What it takes -/

section Requests

open Caretaker.Crew (statusLocked statusesLocked roleStatuses)

variable {settings : Settings}

theorem looks_statusLocked (role : Role) :
    (statusLocked role).Only (S := Crew.signature) fun r => Request.Looks (.crew r) := by
  refine ⟨trivial, fun slot => ?_⟩
  obtain ⟨image, _ | handle, phase⟩ := slot
  · trivial
  · refine ⟨trivial, fun answer => ?_⟩
    cases answer with
    | ok info => trivial
    | error cause => exact ⟨trivial, fun _ => trivial⟩

theorem looks_checkHealth (settings : Settings) :
    (checkHealth settings).Only (S := signature) Request.Looks := by
  refine .bind (only_ofCrew ⟨trivial, fun held => ?_⟩) fun statuses => trivial
  cases held with
  | true =>
    have hstatuses :
        statusesLocked.Only (S := Crew.signature) fun r => Request.Looks (.crew r) := by
      simp only [statusesLocked, Role.all, List.mapM_cons, List.mapM_nil]
      refine .bind (looks_statusLocked .updater) fun _ => ?_
      exact .bind (.bind (looks_statusLocked .supervisor) fun _ => trivial) fun _ => trivial
    exact hstatuses.bind fun _ => ⟨trivial, fun _ => trivial⟩
  | false => exact ⟨trivial, fun roster => trivial⟩

theorem within_statusLocked (role : Role) :
    (statusLocked role).Within (S := Crew.signature) 3 := by
  intro slot
  obtain ⟨image, _ | handle, phase⟩ := slot
  · trivial
  · intro answer
    cases answer with
    | ok info => trivial
    | error cause => exact fun _ => trivial

theorem within_ofCrew {α : Type} {n : Nat} {t : Crew.Transaction α}
    (h : t.Within (S := Crew.signature) n) : (ofCrew t).Within n := by
  induction t generalizing n with
  | done value => exact within_done n value
  | ask r next ih =>
    cases n with
    | zero => exact h.elim
    | succ n => exact fun answer => ih answer (h answer)

/-- Health is asked for in eight requests at most. -/
theorem within_checkHealth (settings : Settings) : (checkHealth settings).Within 8 := by
  have hstatuses : statusesLocked.Within (S := Crew.signature) 6 := by
    simp only [statusesLocked, Role.all, List.mapM_cons, List.mapM_nil]
    refine Within.bind (m := 3) (n := 3) (within_statusLocked .updater) fun _ => ?_
    refine Within.bind (m := 3) (n := 0) ?_ fun _ => trivial
    exact Within.bind (m := 3) (n := 0) (within_statusLocked .supervisor) fun _ => trivial
  have hroleStatuses : roleStatuses.Within (S := Crew.signature) 8 := by
    intro held
    cases held with
    | true =>
      have hlocked : Within (S := Crew.signature) 7 (statusesLocked >>= fun list =>
          Crew.Transaction.unlock >>= fun _ => Script.done list) :=
        Within.bind (m := 6) (n := 1) hstatuses fun list _ => trivial
      exact hlocked
    | false => exact fun roster => trivial
  exact Within.bind (m := 8) (n := 0) (within_ofCrew hroleStatuses) fun statuses => trivial

/-- Whatever is asked for can be answered somehow. -/
theorem Request.Looks.nonempty {r : Request} (h : r.Looks) : Nonempty r.Answer := by
  cases r with
  | crew r =>
    cases r with
    | tryLock => exact ⟨false⟩
    | unlock => exact ⟨()⟩
    | slot role => exact ⟨({} : Crew.Slot)⟩
    | lastKnown => exact ⟨({} : Crew.Roster)⟩
    | log event => exact ⟨()⟩
    | call c =>
      cases c with
      | inspect id => exact ⟨.error (.notFound id)⟩
      | _ => exact h.elim
    | _ => exact h.elim
  | _ => exact h.elim

/-- Nothing that is asked for has to wait, but for a container that is not to be asked about. -/
theorem Request.Looks.ready {ρ : Type} [Backend ρ] {r : Request} (h : r.Looks) {w : World ρ}
    (hgated : .inspect ∉ w.crew.gated) (newsFirst : Bool) (who : Nat) :
    (w.choose newsFirst who r).1 ≠ none := by
  cases r with
  | crew r =>
    cases r with
    | lock access => exact h.elim
    | setSlot role slot => exact h.elim
    | publish role => exact h.elim
    | call call =>
      cases call with
      | inspect id =>
        have hanswer : ((w.crew.attempt who (.call (.inspect id))).1).isSome = true := by
          simp [Crew.World.attempt, Container.Call.operation, hgated]
        exact Option.isSome_iff_ne_none.1 hanswer
      | _ => exact h.elim
    | _ => exact Option.some_ne_none _
  | _ => exact h.elim

end Requests

/-! ## Requests to the health server -/

/-- Who asks for the health of the service gets a report. -/
theorem serve_health (settings : Settings) (timestamp : String) :
    serve settings timestamp "GET" "/health" =
      Health.reportResponse false timestamp <$> checkHealth settings := by
  have hroute : Health.route "GET" "/health" = .report false := by decide
  rw [serve, hroute]
  rfl

theorem looks_serve (settings : Settings) (timestamp : String) :
    (serve settings timestamp "GET" "/health").Only (S := signature) Request.Looks := by
  rw [serve_health]
  exact (looks_checkHealth settings).map _

/-- A dialogue of a request for health is carried on to one that consults what there is. -/
theorem consults_of_leads {settings : Settings} {timestamp : String}
    {dialogue : List (Exchange signature)} {rest : Action Health.Response}
    (h : Leads (serve settings timestamp "GET" "/health") dialogue rest) :
    ∃ more response, Leads rest more (.done response) ∧ Consults (dialogue ++ more) := by
  obtain ⟨more, response, hmore⟩ :=
    exists_leads_done (h.only (looks_serve settings timestamp)).2 fun _ => Request.Looks.nonempty
  have hwhole := h.append hmore
  rw [serve_health] at hwhole
  obtain ⟨rest', hcheck, hrest⟩ := hwhole.of_map
  cases rest' with
  | ask r next => cases hrest
  | done report => exact ⟨more, response, hmore, (report_of_leads hcheck).1⟩

/-- The status that a task ends with, if it is a request to the health server. -/
def Ending.status? : Ending → Option Nat
  | .result (.response response) => some response.status
  | _ => none

namespace Sample

/-- A service is started, and its updates go on until they wait for new images. -/
def settling : List (Move Container.Memory) :=
  .begins (Use.start.task Crew.developmentSettings) :: List.replicate 40 (.goesOn 0 false) ++
    .adopts :: List.replicate 60 (.goesOn 2 false)

/-- Both roles run. -/
def settled : Scene Container.Memory :=
  (Scene.fresh ({} : Container.Memory) (.seeded (Crew.Sample.refs "sup:v1"))
    (.failingAt [] none)).run Crew.developmentSettings settling

end Sample

/-- Health is told on live evidence, whatever goes on before, beside and after the request: any
tasks and updates, containers that change, calls that fail or are held back.

- The request has a dialogue, which it hears turn by turn: what is answered is so in the world at
  that turn.
- The dialogue is one of those that consult what there is, or the beginning of one.  It tries the
  lock, and if it has that it reads both slots and asks about the container of each that has one.
- It never waits for the lock, and when the calls that ask about containers are not held back it is
  answered in nine turns.
- The answer is a report that tells of the updater and then of the supervisor.  It is 200 and ok if
  each role that should run was seen running in that dialogue, and 503 and degraded if not. -/
theorem health_on_evidence {ρ : Type} [Backend ρ] (settings : Settings) (timestamp : String)
    (backend : ρ) (images : ImageStore) (probe : Probe) (before after : List (Move ρ)) :
    let s₀ := (Scene.fresh backend images probe).run settings before
    let who := s₀.tasks.length
    let s₁ := s₀.step settings (.begins ((Use.request timestamp "GET" "/health").task settings))
    let s := s₁.run settings after
    ∃ dialogue rest more,
      (Leads (serve settings timestamp "GET" "/health") dialogue rest ∧
        s.Came who dialogue (.response <$> rest) ∧
        s₁.Hears settings who World.Says after dialogue) ∧
      Consults (dialogue ++ more) ∧
      ((∀ exchange ∈ dialogue, exchange.request.Looks) ∧
        rest.Only (S := signature) Request.Looks) ∧
      ((∀ first newsFirst second, after = first ++ .goesOn who newsFirst :: second →
          .inspect ∉ (s₁.run settings first).world.crew.gated) →
        8 < turnCount who after →
        ∃ response, rest = .done response ∧ s.endedOf who = [(who, .result (.response response))]) ∧
      ∀ response, rest.outcome? = some response → more = [] ∧
        ∃ report, response = Health.reportResponse false timestamp report ∧
          report.roles.map (·.role) = [Role.updater.name, Role.supervisor.name] ∧
          (response.status = 200 ∧ report.status = "ok" ↔
            ∀ role, settings.Expects role → SeenRunning role dialogue) ∧
          (response.status = 200 ∧ report.status = "ok" ∨
            response.status = 503 ∧ report.status = "degraded") := by
  intro s₀ who s₁ s
  have hnumbered : s₀.Numbered := (Scene.numbered_fresh backend images probe).run before
  have hbegun : s₁.Came who [] ((Use.request timestamp "GET" "/health").action settings) :=
    hnumbered.came _
  obtain ⟨dialogue, told, hleads, hcame, hhears⟩ := hbegun.run settings after
  obtain ⟨rest, hserve, rfl⟩ := hleads.of_map
  have hlooks := looks_serve settings timestamp
  have hwithin : (serve settings timestamp "GET" "/health").Within 8 := by
    rw [serve_health]
    exact (within_checkHealth settings).map _
  have htells : s₁.Hears settings who World.Says after dialogue :=
    hhears.mono fun exchange hmem w hgives =>
      hgives.tells ((hserve.only hlooks).1 exchange hmem)
  obtain ⟨more, _, hmore, hconsults⟩ := consults_of_leads hserve
  refine ⟨dialogue, rest, more, ⟨hserve, hcame, htells⟩, hconsults, hserve.only hlooks, ?_, ?_⟩
  · intro hgated hturns
    have hready : ∀ first newsFirst second, after = first ++ .goesOn who newsFirst :: second →
        ∀ r, Request.Looks r → ((s₁.run settings first).world.choose newsFirst who r).1 ≠ none :=
      fun first newsFirst second heq r hr => hr.ready (hgated first newsFirst second heq) _ _
    obtain ⟨result, hended⟩ := hbegun.ends (hlooks.map _) (hwithin.map _) hready hturns
    -- what the task ended with is where its dialogue led
    rcases hcame.stands with ⟨-, hnone⟩ | ⟨result', hdone, -, hover⟩
    · have hempty : ([] : List (Nat × Ending)) = [(who, .result result)] := hnone.symm.trans hended
      cases hempty
    · cases rest with
      | ask r next => cases hdone
      | done response =>
        cases hdone
        exact ⟨response, rfl, hover⟩
  · intro response hresponse
    cases rest with
    | ask r next => cases hresponse
    | done response' =>
      cases hresponse
      rw [serve_health] at hserve
      obtain ⟨rest, hcheck, hrest⟩ := hserve.of_map
      cases rest with
      | ask r next => cases hrest
      | done report =>
        cases hrest
        obtain ⟨-, statuses, hroles, htold⟩ := report_of_leads hcheck
        refine ⟨(leads_done.1 hmore).1, report, rfl, ?_, ?_⟩
        · simp [hroles, Role.all, roleHealth, (htold .updater).1, (htold .supervisor).1]
        · rw [← isHealthy_iff hcheck]
          cases hhealthy : report.isHealthy with
          | true => simp [Health.reportResponse, HealthReport.status, hhealthy]
          | false => simp [Health.reportResponse, HealthReport.status, hhealthy]

/-- Both roles run, and who asks is told so. -/
theorem health_on_evidence_settled :
    let who := Sample.settled.tasks.length
    let s₁ := Sample.settled.step Crew.developmentSettings
      (.begins ((Use.request "now" "GET" "/health").task Crew.developmentSettings))
    let turns := List.replicate 9 (.goesOn who false)
    (∀ first newsFirst second, turns = first ++ .goesOn who newsFirst :: second →
        .inspect ∉ (s₁.run Crew.developmentSettings first).world.crew.gated) ∧
      8 < turnCount who turns ∧
      ∃ dialogue report,
        s₁.Hears Crew.developmentSettings who World.Says turns dialogue ∧ Consults dialogue ∧
        (∀ role, SeenRunning role dialogue) ∧ report.status = "ok" ∧
        (Health.reportResponse false "now" report).status = 200 ∧
        (s₁.run Crew.developmentSettings turns).endedOf who =
          [(who, .result (.response (Health.reportResponse false "now" report)))] := by
  intro who s₁ turns
  have hungated : ∀ k < 9,
      let sₖ := s₁.run Crew.developmentSettings (List.replicate k (.goesOn who false))
      .inspect ∉ sₖ.world.crew.gated := by
    decide +kernel
  have hgated : ∀ first newsFirst second, turns = first ++ .goesOn who newsFirst :: second →
      .inspect ∉ (s₁.run Crew.developmentSettings first).world.crew.gated := by
    intro first newsFirst second heq
    obtain ⟨hlength, hfirst, -⟩ := List.append_eq_replicate_iff.1 heq.symm
    rw [hfirst]
    exact hungated _ (by rw [List.length_cons] at hlength; omega)
  have hturns : 8 < turnCount who turns := by decide +kernel
  -- the run ends with 200, and that is told on evidence only
  have hstatus : ((s₁.run Crew.developmentSettings turns).endedOf who).map (·.2.status?) =
      [some 200] := by
    decide +kernel
  obtain ⟨dialogue, rest, more, ⟨-, -, hhears⟩, hconsults, -, hends, htold⟩ :=
    health_on_evidence Crew.developmentSettings "now" ({} : Container.Memory)
      (.seeded (Crew.Sample.refs "sup:v1")) (.failingAt [] none) Sample.settling turns
  obtain ⟨response, rfl, hended⟩ := hends hgated hturns
  obtain ⟨rfl, report, rfl, -, hiff, hcases⟩ := htold response rfl
  have hended' : (s₁.run Crew.developmentSettings turns).endedOf who = _ := hended
  rw [hended'] at hstatus
  have hfine : (Health.reportResponse false "now" report).status = 200 :=
    Option.some.inj (List.head_eq_of_cons_eq hstatus)
  rcases hcases with hok | ⟨hdegraded, -⟩
  · rw [List.append_nil] at hconsults
    exact ⟨hgated, hturns, dialogue, report, hhears, hconsults,
      fun role => hiff.1 hok role (.inr rfl), hok.2, hok.1, hended⟩
  · cases hfine.symm.trans hdegraded

/-- While a start holds the lock, health is told at once and without a look at any container. -/
example :
    let s := (Scene.fresh ({} : Container.Memory) (.seeded (Crew.Sample.refs "sup:v1"))
      (.failingAt [] none)).run Crew.developmentSettings
        (.begins (Use.start.task Crew.developmentSettings) :: List.replicate 12 (.goesOn 0 false) ++
          .begins ((Use.request "now" "GET" "/health").task Crew.developmentSettings) ::
            List.replicate 3 (.goesOn 1 false))
    s.world.crew.lock.isReadable = false ∧ (s.endedOf 1).map (·.2.status?) = [some 503] ∧
      s.callsOf 1 = [] := by
  decide +kernel

end Service
end Caretaker
