import Caretaker.Proofs.Lone
import Caretaker.Proofs.Stages

/-!
# The scripts of a service without auto-update

One task starts such a service, and launches the supervisor; all others read the slot of the
supervisor and tend the container they find there.  What each of them does is ensured by a rule:
the starter alone writes, and everybody else goes on while it does.

Main definitions:

- `starter`, `watcher`: what the task of the start may do, and what all others may.

Main statements:

- `starts_start`: a start keeps to the rule of the starter.
- `watches_task`, `watches_round`: all else keeps to the rule of those who watch.
-/

namespace Caretaker

/-- Whether a report is about the supervisor alone: the updater is neither expected nor running, and
nothing is known of it. -/
def HealthReport.OfSupervisor (report : HealthReport) (supervisor : RoleHealth) : Prop :=
  report.roles = [{ role := Role.updater.name, expected := false, running := false }, supervisor] ∧
    supervisor.role = Role.supervisor.name ∧ supervisor.expected = true

/-- The service is as healthy as the supervisor. -/
theorem HealthReport.OfSupervisor.isHealthy {report : HealthReport} {supervisor : RoleHealth}
    (h : report.OfSupervisor supervisor) : report.isHealthy = supervisor.running := by
  obtain ⟨hroles, -, hexpected⟩ := h
  simp [HealthReport.isHealthy, hroles, hexpected]

namespace Service

open Container (Backend)
open Script Service.Action
open Caretaker.Crew (Progress)

/-! ## Rules of the service -/

/-- Whether an activity serves health or passes to keep containers alive. -/
def Activity.Watches : Activity → Prop
  | .health | .healthFrom _ | .keepAlive | .keepAliveFrom _ _ => True
  | .updates | .updatesFrom => False

/-- How a start goes on that alone writes the slot of the supervisor. -/
def starter (born : Handle → Prop) (embedded : ImageRefs) : Rule signature Progress
  | .crew r, p, post => Progress.writer born embedded.supervisor r p post
  | .check c, p, post => ∀ answer : Except Probe.Fault c.Value, post answer p
  | .embeddedImages, p, post => post embedded p
  | .spawn activity, p, post => activity.Watches ∧ post () p
  | _, _, _ => False

/-- How everybody else goes on. -/
def watcher : Rule signature Progress
  | .crew r, p, post => Progress.reader r p post
  | .now, p, post => ∀ time : Nat, post time p
  | .tickOrShutdown _ _, p, post => ∀ wake : Wake, post wake p
  | .shutdown _, p, post => ∀ news : ShutdownNews, post news p
  | .listen _, p, post => ∀ free : Bool, post free p
  | .leave _, p, post => post () p
  | .claimUpdates, p, post => ∀ claimed : Bool, post claimed p
  | .awaitUpdates, p, post => post () p
  | _, _, _ => False

/-- How everybody else goes on while the launch goes on as well. -/
abbrev watchers : Rule signature Progress := watcher.under Progress.Later

theorem watcher_monotone : watcher.Monotone := by
  intro r p post post' himp h
  cases r with
  | crew r => exact Progress.reader_monotone r p _ _ himp h
  | now => exact fun time => himp _ _ (h time)
  | tickOrShutdown => exact fun wake => himp _ _ (h wake)
  | shutdown => exact fun news => himp _ _ (h news)
  | listen => exact fun free => himp _ _ (h free)
  | claimUpdates => exact fun claimed => himp _ _ (h claimed)
  | leave => exact himp _ _ h
  | awaitUpdates => exact himp _ _ h
  | _ => exact h.elim

theorem starter_monotone (born : Handle → Prop) (embedded : ImageRefs) :
    (starter born embedded).Monotone := by
  intro r p post post' himp h
  cases r with
  | crew r => exact Progress.writer_monotone born embedded.supervisor r p _ _ himp h
  | check c => exact fun answer => himp _ _ (h answer)
  | embeddedImages => exact himp _ _ h
  | spawn activity => exact ⟨h.1, himp _ _ h.2⟩
  | _ => exact h.elim

/-- What a transaction ensures it ensures as a part of the service. -/
theorem ensures_ofCrew {α σ : Type} {crew : Rule Crew.signature σ} {rule : Rule signature σ}
    (hcrew : crew.Monotone) (hrule : ∀ r s post, crew r s post → rule (.crew r) s post)
    {t : Crew.Transaction α} {post : α → σ → Prop} {s : σ} (h : t.Ensures crew post s) :
    (ofCrew t).Ensures rule post s := by
  induction t generalizing s with
  | done value => exact h
  | ask r next ih => exact hrule r s _ (hcrew r s _ _ (fun answer s' h' => ih answer h') h)

theorem watches_ofCrew {α : Type} {t : Crew.Transaction α} {post : α → Progress → Prop}
    {p : Progress} (h : t.Ensures Progress.others post p) : (ofCrew t).Ensures watchers post p :=
  ensures_ofCrew (Progress.reader_monotone.under Progress.Later) (fun _ _ _ h' => h') h

/-! ## The start -/

section Start

variable {born : Handle → Prop} {embedded : ImageRefs} {settings : Settings} {p : Progress}

/-- Nothing but the launch is about the supervisor, and nothing but the stream about images. -/
theorem starts_of_isOf {α : Type} {stage : Stage} (hlaunch : stage ≠ .launch)
    (hstream : stage ≠ .stream) (hupdates : stage ≠ .updates) {script : Action α}
    (h : script.Only (S := signature) (Request.IsOf stage)) :
    script.Ensures (starter born embedded) (fun _ p' => p' = p) p := by
  induction script with
  | done value => rfl
  | ask r next ih =>
    obtain ⟨hr, hnext⟩ := h
    rcases hr with hstage | ⟨event, rfl⟩
    · cases r with
      | check c => exact fun answer => ih answer (hnext answer)
      | spawn activity =>
        cases activity with
        | updates => exact absurd (Option.some.inj hstage).symm hupdates
        | health => exact ⟨trivial, ih () (hnext ())⟩
        | keepAlive => exact ⟨trivial, ih () (hnext ())⟩
        | _ => cases hstage
      | embeddedImages => exact absurd (Option.some.inj hstage).symm hlaunch
      | takeImages => exact absurd (Option.some.inj hstage).symm hstream
      | crew r =>
        cases r with
        | log event => cases hstage
        | call c =>
          cases c with
          | list => exact ⟨trivial, fun answer _ => ih answer (hnext answer)⟩
          | nuke => exact ⟨trivial, fun answer _ => ih answer (hnext answer)⟩
          | _ => exact absurd (Option.some.inj hstage).symm hlaunch
        | _ => exact absurd (Option.some.inj hstage).symm hlaunch
      | _ => cases hstage
    · exact ih () (hnext ())

theorem starts_launch (hp : p = {}) :
    (launchEmbedded settings .supervisor).Ensures (starter born embedded) (fun _ _ => True) p := by
  subst hp
  unfold launchEmbedded
  refine ensures_bind.2 (ensures_bind.2 (ensures_bind.2 ?_))
  have hreplace : (Crew.replace settings .supervisor embedded).Ensures
      (Progress.writer born embedded.supervisor) (fun _ _ => True) {} :=
    Crew.writes_replace rfl rfl rfl
  refine (ensures_ofCrew (Progress.writer_monotone born embedded.supervisor) (fun _ _ _ h => h)
    hreplace).mono (starter_monotone born embedded) fun result p' _ => ?_
  cases result <;> trivial

/-- A start launches the supervisor once and does nothing about the updater. -/
theorem starts_start (hauto : settings.autoUpdate = false) :
    (start settings).Ensures (starter born embedded) (fun _ _ => True) {} := by
  rw [start_eq_inOrder]
  have hmono := starter_monotone born embedded
  -- every stage but the launch leaves everything as it is
  have hquiet : ∀ stage ∈ [Stage.check, .leftovers, .health, .keepAlive], ∀ rest p,
      (inOrder settings rest).Ensures (starter born embedded) (fun _ _ => True) p →
      (inOrder settings (stage :: rest)).Ensures (starter born embedded) (fun _ _ => True) p := by
    intro stage hmem rest p hrest
    have hne : stage ≠ .launch ∧ stage ≠ .stream ∧ stage ≠ .updates := by
      revert stage
      decide
    refine ensures_bind.2 ?_
    refine (starts_of_isOf hne.1 hne.2.1 hne.2.2 isOf_action).mono hmono ?_
    rintro result p' rfl
    cases result with
    | ok => exact hrest
    | error e => trivial
  have hlaunch : ∀ rest, (∀ p,
      (inOrder settings rest).Ensures (starter born embedded) (fun _ _ => True) p) →
      (inOrder settings (.launch :: rest)).Ensures (starter born embedded)
        (fun _ _ => True) {} := by
    intro rest hrest
    refine ensures_bind.2 ?_
    simp only [action_launch, hauto]
    refine ensures_bind.2 ((starts_launch rfl).mono hmono fun result p' _ => ?_)
    cases result with
    | ok => exact hrest p'
    | error e => trivial
  unfold stages
  rw [hauto]
  refine hquiet .check (by decide) _ _ (hquiet .leftovers (by decide) _ _
    (hquiet .health (by decide) _ _ (hlaunch _ fun p => ?_)))
  exact hquiet .keepAlive (by decide) [] p trivial

end Start

/-! ## Everybody else -/

/-- Whether a result that tells of health tells of the supervisor alone. -/
def Result.OfSupervisor : Result → Prop
  | .report told => ∃ supervisor, told.OfSupervisor supervisor
  | .response answer => ∃ timestamp method target told supervisor,
      HealthReport.OfSupervisor told supervisor ∧
        answer = Health.respond timestamp told (Health.route method target)
  | .crew _ | .called _ _ | .started _ | .finished => True

/-- Whether an ending is of a service that runs the supervisor only. -/
def Ending.OfSupervisor : Ending → Prop
  | .result value => value.OfSupervisor
  | .round none => True
  | .round (some activity) => activity.Watches

section Others

variable {settings : Settings} {p : Progress}

theorem watches_locked {α : Type} {access : Crew.Access} {body : Crew.Transaction α}
    (h : ∀ p, body.Ensures Progress.others (fun _ _ => True) p) :
    (ofCrew (Crew.Transaction.locked access body)).Ensures watchers (fun _ _ => True) p := by
  refine watches_ofCrew fun now _ => ensures_bind.2 (ensures_bind.2 ?_)
  exact (h now).mono (Progress.reader_monotone.under Progress.Later) fun _ _ _ _ _ => trivial

theorem watches_stop : stop.Ensures watchers (fun _ _ => True) p := by
  refine watches_locked fun p => ensures_bind.2 ?_
  exact (Crew.reader_stopLocked .updater p).mono (Progress.reader_monotone.under Progress.Later)
    fun _ p' _ => Crew.reader_stopLocked .supervisor p'

theorem watches_joinUpdates : joinUpdates.Ensures watchers (fun _ _ => True) p := by
  intro now _ claimed
  cases claimed with
  | true => exact fun _ _ => trivial
  | false => trivial

theorem watches_checkHealth (hauto : settings.autoUpdate = false) :
    (checkHealth settings).Ensures watchers
      (fun report _ => ∃ supervisor, report.OfSupervisor supervisor) p := by
  refine ensures_bind.2 ((watches_ofCrew (Crew.reader_roleStatuses p)).mono
    (watcher_monotone.under Progress.Later) ?_)
  rintro statuses p' ⟨status, rfl, hrole⟩
  refine ⟨roleHealth settings status, ?_, ?_, ?_⟩
  · simp [roleHealth, Crew.Slot.status, Crew.RoleStatus.isRunning, hauto]
  · simp [roleHealth, hrole]
  · simp [roleHealth, hrole]

theorem watches_serve (hauto : settings.autoUpdate = false) (timestamp method target : String) :
    (serve settings timestamp method target).Ensures watchers
      (fun response _ => (Result.response response).OfSupervisor) p := by
  unfold serve
  split
  · next bodyless hroute =>
    refine ensures_bind.2 ((watches_checkHealth hauto).mono
      (watcher_monotone.under Progress.Later) ?_)
    rintro report p' ⟨supervisor, hreport⟩
    exact ⟨timestamp, method, target, report, supervisor, hreport, by rw [hroute]; rfl⟩
  · next hroute =>
    -- no report is asked for, so any will do
    let supervisor : RoleHealth :=
      { role := Role.supervisor.name, expected := true, running := false }
    refine ⟨timestamp, method, target, ⟨[_, supervisor]⟩, supervisor, ⟨rfl, rfl, rfl⟩, ?_⟩
    cases hat : Health.route method target with
    | report bodyless => exact absurd hat (hroute bodyless)
    | _ => rfl

/-- Every use but a start tells of the supervisor alone. -/
theorem watches_task (hauto : settings.autoUpdate = false) {use : Use} (h : use ≠ .start) :
    (use.task settings).Ensures watchers (fun ending _ => ending.OfSupervisor) p := by
  have hmono : watchers.Monotone := watcher_monotone.under Progress.Later
  refine ensures_map.2 ?_
  cases use with
  | start => exact absurd rfl h
  | stop => exact ensures_map.2 (watches_stop.mono hmono fun _ _ _ => trivial)
  | join => exact ensures_map.2 (watches_joinUpdates.mono hmono fun _ _ _ => trivial)
  | report => exact ensures_map.2 (watches_checkHealth hauto)
  | request timestamp method target =>
    exact ensures_map.2 (watches_serve hauto timestamp method target)

theorem watches_keepAliveRound (hauto : settings.autoUpdate = false) (nextTick seen : Nat) :
    (keepAliveRound settings nextTick seen).Ensures watchers
      (fun next _ => (Ending.round next).OfSupervisor) p := by
  have hmono : watchers.Monotone := watcher_monotone.under Progress.Later
  intro now _ wake
  cases wake with
  | tick =>
    -- the pass leaves the updater out
    have hpass : (ofCrew (Crew.keepAlive settings.autoUpdate)).Ensures watchers
        (fun _ _ => True) now := by
      rw [hauto]
      refine watches_locked fun p => ensures_bind.2 ?_
      exact (Crew.reader_reviveLocked p).mono (Progress.reader_monotone.under Progress.Later)
        fun _ _ _ => trivial
    refine ensures_bind.2 (ensures_bind.2 (hpass.mono hmono fun restarts later _ => ?_))
    show Ensures watchers _ (if 0 < restarts then _ else _) later
    split
    · exact fun _ _ => trivial
    · trivial
  | shutdown news =>
    show Ensures watchers _ (if news.endsWatch then _ else _) now
    split
    · exact fun _ _ => trivial
    · cases news <;> trivial

/-- A round of serving health or of the keep-alive passes leaves the updater out. -/
theorem watches_round (hauto : settings.autoUpdate = false) {activity : Activity}
    (h : activity.Watches) :
    (.round <$> activity.round settings : Action Ending).Ensures watchers
      (fun ending _ => ending.OfSupervisor) p := by
  refine ensures_map.2 ?_
  cases activity with
  | updates => exact h.elim
  | updatesFrom => exact h.elim
  | keepAlive => exact fun _ _ _ _ _ => trivial
  | keepAliveFrom nextTick seen => exact watches_keepAliveRound hauto nextTick seen
  | health =>
    intro now _ free
    cases free <;> exact fun _ _ => trivial
  | healthFrom seen =>
    intro now _ news
    rcases news with ⟨sent, _ | _⟩ | _
    · trivial
    · exact fun _ _ => trivial
    · exact fun _ _ => trivial

end Others

end Service
end Caretaker
