import Caretaker.Container.Memory
import Caretaker.Proofs.Alone
import Caretaker.Proofs.Attended

/-!
# The stages of a start

A start goes through stages: the check, the removal of leftover containers, serving health, the
launch of one built-in image, with auto-update the image stream and the updates, and at last the
keep-alive passes.  The first stage that fails ends it, with the error of that stage, and nothing of
a later stage is ever asked for.

Main definitions:

- `stages`, `Stage.action`: what the stages are, and what each does.
- `Staged`: a dialogue that goes through stages in order and stops at the first failure.

Main statements:

- `start_eq_inOrder`: a start is its stages in order.
- `start_staged`: so far every start went through its stages, whatever else went on, and after a
  failure nothing else happens.
-/

namespace Caretaker

/-- The role whose built-in image is launched at the start. -/
def Settings.firstRole (settings : Settings) : Role :=
  if settings.autoUpdate then .updater else .supervisor

namespace Service

open Container (Backend)
open Script Service.Action
open Caretaker.Crew (tends)

/-- A stage of a start. -/
inductive Stage where
  /-- What the service depends on is checked. -/
  | check
  /-- Leftover containers are removed. -/
  | leftovers
  /-- Health is served from here on. -/
  | health
  /-- A built-in image is launched. -/
  | launch
  /-- The image stream is taken. -/
  | stream
  | updates
  | keepAlive
deriving DecidableEq, Repr

/-- The place of a stage among all. -/
def Stage.rank : Stage → Nat
  | check => 0
  | leftovers => 1
  | health => 2
  | launch => 3
  | stream => 4
  | updates => 5
  | keepAlive => 6

/-- The stages of a start, in order. -/
def stages (settings : Settings) : List Stage :=
  if settings.autoUpdate then [.check, .leftovers, .health, .launch, .stream, .updates, .keepAlive]
  else [.check, .leftovers, .health, .launch, .keepAlive]

/-- What is done in a stage.  A launch replaces the first role with the built-in images. -/
def Stage.action (settings : Settings) : Stage → Action (Except ServiceError Unit)
  | check => (·.mapError .startup) <$> startupCheck settings
  | leftovers => (·.mapError .leftovers) <$> call .nuke
  | health => Except.ok <$> ask (.spawn .health)
  | launch => do
    unless settings.autoUpdate do
      log .service .info "Auto-update disabled, running embedded supervisor only" []
    let refs ← ask .embeddedImages
    log .service .info "Launching embedded image"
      [("role", settings.firstRole.name), ("supervisor", refs.supervisor),
        ("updater", refs.updater)]
    let replaced ← ofCrew (Crew.replace settings settings.firstRole refs)
    return (replaced.map fun _ => ()).mapError (.embeddedLaunch settings.firstRole)
  | stream => (·.mapError .images) <$> ask .takeImages
  | updates => Except.ok <$> ask (.spawn .updates)
  | keepAlive => Except.ok <$> ask (.spawn .keepAlive)

/-- Stages one after the other, up to the first that fails. -/
def inOrder (settings : Settings) : List Stage → Action (Except ServiceError Unit)
  | [] => return .ok ()
  | stage :: rest => do
    match ← stage.action settings with
    | .error e => return .error e
    | .ok () => inOrder settings rest

/-- A launch is that of the built-in image of the first role. -/
theorem action_launch (settings : Settings) :
    Stage.launch.action settings =
      (if settings.autoUpdate then launchEmbedded settings .updater
      else do
        log .service .info "Auto-update disabled, running embedded supervisor only" []
        launchEmbedded settings .supervisor) := by
  have hreplace : ∀ role, launchEmbedded settings role = (do
      let refs ← ask .embeddedImages
      log .service .info "Launching embedded image"
        [("role", role.name), ("supervisor", refs.supervisor), ("updater", refs.updater)]
      let replaced ← ofCrew (Crew.replace settings role refs)
      return (replaced.map fun _ => ()).mapError (.embeddedLaunch role)) := by
    intro role
    refine bind_congr fun refs => bind_congr fun _ => bind_congr fun replaced => ?_
    cases replaced <;> rfl
  rw [hreplace, hreplace]
  cases hauto : settings.autoUpdate
  · simp [Stage.action, Settings.firstRole, hauto]
  · simp [Stage.action, Settings.firstRole, hauto]

/-- A start is its stages in order. -/
theorem start_eq_inOrder (settings : Settings) :
    start settings = inOrder settings (stages settings) := by
  -- the first stages are the same with and without auto-update
  have hfirst : ∀ rest,
      (do
        match ← launchFirst settings with
        | .error e => return .error e
        | .ok () =>
          ask (.spawn .keepAlive)
          return .ok ()) = inOrder settings rest →
      start settings = inOrder settings (.check :: .leftovers :: .health :: rest) := by
    intro rest hrest
    simp only [start, inOrder, Stage.action, bind_map_left]
    refine bind_congr fun checked => ?_
    cases checked with
    | error cause => rfl
    | ok =>
      refine bind_congr fun removed => ?_
      cases removed with
      | error cause => rfl
      | ok => exact bind_congr fun _ => hrest
  unfold stages
  cases hauto : settings.autoUpdate
  · refine hfirst _ ?_
    simp only [launchFirst, inOrder, action_launch, hauto, Bool.false_eq_true, if_false]
    simp only [Stage.action, bind_map_left, LawfulMonad.bind_assoc]
  · refine hfirst _ ?_
    simp only [launchFirst, inOrder, action_launch, hauto, if_true]
    simp only [Stage.action, bind_map_left, LawfulMonad.bind_assoc]
    refine bind_congr fun launched => ?_
    cases launched with
    | error e => rfl
    | ok =>
      simp only [LawfulMonad.bind_assoc]
      refine bind_congr fun taken => ?_
      cases taken <;> rfl

/-! ## What a stage asks for -/

/-- The stage of a request; the log may be told something in any. -/
def Request.stage? : Request → Option Stage
  | .check _ | .crew (.call .list) => some .check
  | .crew (.call .nuke) => some .leftovers
  | .spawn .health => some .health
  | .embeddedImages => some .launch
  | .takeImages => some .stream
  | .spawn .updates => some .updates
  | .spawn .keepAlive => some .keepAlive
  | .crew (.log _) => none
  | .crew _ => some .launch
  | _ => none

/-- Whether a request belongs to a stage, or tells the log something. -/
def Request.IsOf (stage : Stage) (r : Request) : Prop :=
  r.stage? = some stage ∨ ∃ event, r = .crew (.log event)

section Replaces

open Crew Crew.Replace

/-- Whether a call may be part of a replace. -/
def replaces : Container.Call → Bool
  | .list | .nuke => false
  | _ => true

/-- Whether a request of the crew may be part of a replace. -/
def Request.Replaces : Crew.Request → Prop
  | .call c => replaces c = true
  | _ => True

/-- What is part of a replace is part of the launch. -/
theorem Request.Replaces.isOf {r : Crew.Request} (h : Replaces r) :
    (Request.crew r).IsOf .launch := by
  cases r with
  | log event => exact .inr ⟨event, rfl⟩
  | call c =>
    cases c with
    | list => cases h
    | nuke => cases h
    | _ => exact .inl rfl
  | _ => exact .inl rfl

variable {settings : Settings} {role : Role} {refs : ImageRefs}

theorem replaces_enter (slot : Slot) (phase : Phase) :
    (enter role slot phase).Only (S := Crew.signature) Request.Replaces :=
  ⟨trivial, fun _ => ⟨trivial, fun _ => ⟨trivial, fun _ => trivial⟩⟩⟩

theorem replaces_lift {α : Type} {t : Transaction α}
    (h : t.Only (S := Crew.signature) Request.Replaces) :
    (liftM t : ExceptT ReplaceError (Script Crew.signature) α).run.Only (S := Crew.signature)
      Request.Replaces :=
  h.map _

theorem replaces_callAt {fault : Container.Fault → ReplaceError} {c : Container.Call}
    (hc : replaces c = true) :
    (callAt fault c).run.Only (S := Crew.signature) Request.Replaces := by
  refine ⟨hc, fun answer => ?_⟩
  cases answer <;> trivial

theorem replaces_teardown (image : String) (slot : Slot) (old : Handle) :
    (teardown role image slot old).run.Only (S := Crew.signature) Request.Replaces := by
  have hsignal : (signal role old).Only (S := Crew.signature) Request.Replaces := by
    refine ⟨rfl, fun signalled => ?_⟩
    cases signalled <;> exact ⟨trivial, fun _ => trivial⟩
  rw [teardown_eq]
  refine (replaces_lift (replaces_enter slot .stopping)).run_bind fun slot => ?_
  refine (replaces_lift hsignal).run_bind fun _ => ?_
  refine Only.run_bind (replaces_callAt rfl) fun _ => ?_
  refine (replaces_lift (replaces_enter _ _)).run_bind fun slot => ?_
  refine (replaces_lift (replaces_enter _ _)).run_bind fun slot => ?_
  refine Only.run_bind (replaces_callAt rfl) fun _ => ?_
  exact Only.run_bind (replaces_callAt rfl) fun _ => trivial

theorem replaces_ensureImage (image : String) :
    (ensureImage settings role image).Only (S := Crew.signature) Request.Replaces := by
  have hused : ∀ used : String, (ensureUsed role used).Only (S := Crew.signature)
      Request.Replaces := by
    intro used
    refine ⟨rfl, fun ensured => ?_⟩
    cases ensured with
    | ok => trivial
    | error cause => exact ⟨trivial, fun _ => trivial⟩
  rw [ensureImage_eq]
  cases resolve settings image with
  | ok used => exact hused used
  | error fault => exact ⟨trivial, fun _ => hused image⟩

theorem replaces_launch (slot : Slot) (used : String) :
    (launch settings role refs slot used).run.Only (S := Crew.signature) Request.Replaces := by
  unfold launch
  refine (replaces_lift (replaces_enter slot .starting)).run_bind fun slot => ?_
  refine Only.run_bind (replaces_callAt rfl) fun handle => ?_
  refine Only.run_bind (replaces_lift ⟨trivial, fun _ => trivial⟩) fun _ => ?_
  refine Only.run_bind (replaces_callAt rfl) fun _ => ?_
  refine Only.run_bind (replaces_lift ⟨trivial, fun _ => trivial⟩) fun _ => ?_
  exact Only.run_bind (replaces_lift ⟨trivial, fun _ => trivial⟩) fun _ => trivial

theorem replaces_steps (slot : Slot) :
    (steps settings role refs slot).run.Only (S := Crew.signature) Request.Replaces := by
  have hfill : ∀ slot : Slot,
      (fill settings role refs slot).run.Only (S := Crew.signature) Request.Replaces := by
    intro slot
    refine Only.run_bind (.bind (replaces_ensureImage _) fun ensured => ?_) fun used => ?_
    · cases ensured <;> trivial
    · exact (replaces_lift (replaces_enter _ _)).run_bind fun slot => replaces_launch slot used
  rw [steps_eq]
  cases slot.container with
  | none => exact hfill slot
  | some old => exact (replaces_teardown _ slot old).run_bind hfill

theorem replaces_replace :
    (replace settings role refs).Only (S := Crew.signature) Request.Replaces := by
  have hlocked : (replaceLocked settings role refs).Only (S := Crew.signature)
      Request.Replaces := by
    unfold replaceLocked
    refine ⟨trivial, fun slot => ⟨trivial, fun _ => ?_⟩⟩
    refine (replaces_steps slot).bind fun result => ?_
    cases result with
    | ok outcome => exact ⟨trivial, fun _ => trivial⟩
    | error e => exact ⟨trivial, fun slot => ⟨trivial, fun _ => ⟨trivial, fun _ => trivial⟩⟩⟩
  exact ⟨trivial, fun _ => hlocked.bind fun _ => ⟨trivial, fun _ => trivial⟩⟩

end Replaces

section Stages

variable {settings : Settings} {stage : Stage}

theorem isOf_startupCheck :
    (startupCheck settings).Only (S := signature) (Request.IsOf .check) := by
  have htell : ∀ level message fields,
      (log .startup level message fields).Only (S := signature) (Request.IsOf .check) :=
    fun level message fields => ⟨.inr ⟨_, rfl⟩, fun _ => trivial⟩
  have htrace : (startupCheck.checkTrace settings).Only (S := signature)
      (Request.IsOf .check) := by
    unfold startupCheck.checkTrace
    split
    · refine ⟨.inl rfl, fun answer => ?_⟩
      cases answer with
      | error cause => trivial
      | ok block => exact (htell _ _ _).bind fun _ => trivial
    · trivial
  unfold startupCheck
  refine ⟨.inl rfl, fun listed => ?_⟩
  cases listed with
  | error cause => trivial
  | ok containers =>
    refine (htell _ _ _).bind fun _ => ⟨.inl rfl, fun scanned => ?_⟩
    cases scanned with
    | error cause => trivial
    | ok block =>
      refine (htell _ _ _).bind fun _ => htrace.bind fun traced => ?_
      cases traced with
      | error e => trivial
      | ok =>
        refine ⟨.inl rfl, fun accepted => ?_⟩
        cases accepted with
        | error cause => trivial
        | ok => exact (htell _ _ _).bind fun _ => trivial

theorem isOf_launchEmbedded (role : Role) :
    (launchEmbedded settings role).Only (S := signature) (Request.IsOf .launch) := by
  unfold launchEmbedded
  refine Only.bind ⟨.inl rfl, fun _ => trivial⟩ fun refs => ?_
  refine Only.bind ⟨.inr ⟨_, rfl⟩, fun _ => trivial⟩ fun _ => ?_
  refine Only.bind (only_ofCrew (replaces_replace.mono fun _ => Request.Replaces.isOf))
    fun result => ?_
  cases result <;> trivial

/-- A stage asks for nothing of another one. -/
theorem isOf_action : (stage.action settings).Only (S := signature) (Request.IsOf stage) := by
  cases stage with
  | check => exact .map _ isOf_startupCheck
  | launch =>
    rw [action_launch]
    split
    · exact isOf_launchEmbedded _
    · exact ⟨.inr ⟨_, rfl⟩, fun _ => isOf_launchEmbedded _⟩
  | _ => exact ⟨.inl rfl, fun _ => trivial⟩

/-! ## How a stage fails -/

/-- Whether an error is the one of a stage. -/
def Stage.HasError (settings : Settings) : Stage → ServiceError → Prop
  | check, .startup _ => True
  | leftovers, .leftovers _ => True
  | launch, .embeddedLaunch role _ => role = settings.firstRole
  | stream, .images _ => True
  | _, _ => False

/-- A stage that fails does so with an error of its own. -/
theorem yields_action : (stage.action settings).Yields fun result =>
    ∀ e, result = .error e → stage.HasError settings e := by
  have hlaunch : ∀ role, role = settings.firstRole →
      (launchEmbedded settings role).Yields fun result =>
        ∀ e, result = .error e → Stage.launch.HasError settings e := by
    refine fun role hrole refs _ => yields_bind (ofCrew _) fun result => ?_
    cases result with
    | ok outcome => exact fun e he => by cases he
    | error cause =>
      rintro e ⟨⟩
      exact hrole
  cases stage with
  | check =>
    refine yields_map _ fun result => ?_
    cases result with
    | ok => exact fun e he => by cases he
    | error cause =>
      rintro e ⟨⟩
      trivial
  | leftovers =>
    intro answer
    cases answer with
    | ok => exact fun e he => by cases he
    | error cause =>
      rintro e ⟨⟩
      trivial
  | stream =>
    intro answer
    cases answer with
    | ok => exact fun e he => by cases he
    | error cause =>
      rintro e ⟨⟩
      trivial
  | launch =>
    rw [action_launch]
    split
    · next hauto => exact hlaunch .updater (if_pos hauto).symm
    · next hauto => exact fun _ => hlaunch .supervisor (if_neg hauto).symm
  | _ => exact fun _ e he => by cases he

/-- No error of a stage can be got over. -/
theorem Stage.HasError.fatal {e : ServiceError} (h : stage.HasError settings e) :
    e.severity = .fatal := by
  cases e with
  | replace cause => cases stage <;> exact h.elim
  | _ => rfl

/-- A stage that fails comes before the loops are begun. -/
theorem Stage.HasError.rank_lt {e : ServiceError} (h : stage.HasError settings e) :
    stage.rank < Stage.updates.rank := by
  cases stage with
  | updates => cases e <;> exact h.elim
  | keepAlive => cases e <;> exact h.elim
  | _ => decide

end Stages

/-! ## Stages in a dialogue -/

/-- A stage asked for what is in a part of a dialogue, and for nothing of another stage, and came to
`rest`. -/
structure Stage.Asked (settings : Settings) (stage : Stage) (part : List (Exchange signature))
    (rest : Action (Except ServiceError Unit)) : Prop where
  leads : Leads (stage.action settings) part rest
  only : ∀ exchange ∈ part, exchange.request.IsOf stage

/-- A dialogue that goes through stages in order, with its outcome so far. -/
inductive Staged (settings : Settings) :
    List Stage → List (Exchange signature) → Option (Except ServiceError Unit) → Prop where
  /-- All stages are done. -/
  | finished : Staged settings [] [] (some (.ok ()))
  /-- A stage succeeded, and the next ones follow. -/
  | passes {stage : Stage} {rest : List Stage} {part later : List (Exchange signature)}
      {outcome : Option (Except ServiceError Unit)} :
      stage.Asked settings part (.done (.ok ())) → Staged settings rest later outcome →
      Staged settings (stage :: rest) (part ++ later) outcome
  /-- A stage failed with an error of its own, and nothing follows. -/
  | fails {stage : Stage} {rest : List Stage} {part : List (Exchange signature)}
      {e : ServiceError} :
      stage.Asked settings part (.done (.error e)) → stage.HasError settings e →
      Staged settings (stage :: rest) part (some (.error e))
  /-- A stage is under way. -/
  | within {stage : Stage} {rest : List Stage} {part : List (Exchange signature)}
      {r : Request} {next : r.Answer → Action (Except ServiceError Unit)} :
      stage.Asked settings part (Script.ask (S := signature) r next) →
      Staged settings (stage :: rest) part none

section Staged

variable {settings : Settings} {list : List Stage} {dialogue : List (Exchange signature)}
  {outcome : Option (Except ServiceError Unit)}

/-- What a stage asked for is its own. -/
theorem Stage.asked {stage : Stage} {part : List (Exchange signature)}
    {rest : Action (Except ServiceError Unit)} (h : Leads (stage.action settings) part rest) :
    stage.Asked settings part rest :=
  ⟨h, (h.only isOf_action).1⟩

/-- Stages in order have staged dialogues. -/
theorem staged_of_leads {rest : Action (Except ServiceError Unit)}
    (h : Leads (inOrder settings list) dialogue rest) :
    Staged settings list dialogue rest.outcome? := by
  induction list generalizing dialogue with
  | nil =>
    obtain ⟨rfl, rfl⟩ := leads_done.1 h
    exact .finished
  | cons stage list ih =>
    rcases h.of_bind with ⟨r, next, hpart, rfl⟩ | ⟨part, later, result, rfl, hpart, hlater⟩
    · exact .within (Stage.asked hpart)
    · cases result with
      | ok => exact .passes (Stage.asked hpart) (ih hlater)
      | error e =>
        obtain ⟨rfl, rfl⟩ := leads_done.1 hlater
        rw [List.append_nil]
        exact .fails (Stage.asked hpart) (hpart.yields yields_action e rfl)

/-- Only stages that were reached asked for something. -/
theorem Staged.reached (h : Staged settings list dialogue outcome) :
    ∃ reached missed, list = reached ++ missed ∧
      (∀ exchange ∈ dialogue, ∀ stage, exchange.request.stage? = some stage → stage ∈ reached) ∧
      ∀ e, outcome = some (.error e) →
        ∃ passed stage, reached = passed ++ [stage] ∧ stage.HasError settings e := by
  -- what is asked for in the part of one stage belongs to no other
  have hpart : ∀ {stage part rest}, Stage.Asked settings stage part rest →
      ∀ exchange ∈ part, ∀ stage', exchange.request.stage? = some stage' → stage' = stage := by
    intro stage part rest hasked exchange hmem stage' hstage
    rcases hasked.only exchange hmem with hown | ⟨event, htold⟩
    · exact Option.some.inj (hstage.symm.trans hown)
    · rw [htold] at hstage
      cases hstage
  induction h with
  | finished =>
    exact ⟨[], [], rfl, fun _ hmem => absurd hmem List.not_mem_nil, fun e he => by cases he⟩
  | @passes stage rest part later outcome hasked _ ih =>
    obtain ⟨reached, missed, rfl, honly, herror⟩ := ih
    refine ⟨stage :: reached, missed, rfl, ?_, ?_⟩
    · intro exchange hmem stage' hstage
      rcases List.mem_append.1 hmem with hmem | hmem
      · rw [hpart hasked exchange hmem stage' hstage]
        exact List.mem_cons_self
      · exact List.mem_cons_of_mem _ (honly exchange hmem stage' hstage)
    · intro e he
      obtain ⟨passed, failed, rfl, hfailed⟩ := herror e he
      exact ⟨stage :: passed, failed, rfl, hfailed⟩
  | @fails stage rest part e hasked he =>
    refine ⟨[stage], rest, rfl, ?_, ?_⟩
    · exact fun exchange hmem stage' hstage =>
        List.mem_singleton.2 (hpart hasked exchange hmem stage' hstage)
    · rintro e' ⟨⟩
      exact ⟨[], stage, rfl, he⟩
  | @within stage rest part r next hasked =>
    refine ⟨[stage], rest, rfl, ?_, fun e he => by cases he⟩
    exact fun exchange hmem stage' hstage =>
      List.mem_singleton.2 (hpart hasked exchange hmem stage' hstage)

/-- The stages come in the order of their ranks. -/
theorem stages_pairwise (settings : Settings) :
    (stages settings).Pairwise fun a b => a.rank < b.rank := by
  unfold stages
  split <;> decide

/-- After a failure nothing of a later stage was asked for. -/
theorem Staged.failed {e : ServiceError}
    (h : Staged settings (stages settings) dialogue (some (.error e))) :
    ∃ stage ∈ stages settings, stage.HasError settings e ∧
      ∀ exchange ∈ dialogue, ∀ other, exchange.request.stage? = some other →
        other ∈ stages settings ∧ other.rank ≤ stage.rank := by
  obtain ⟨reached, missed, hlist, honly, herror⟩ := h.reached
  obtain ⟨passed, stage, rfl, hstage⟩ := herror e rfl
  have hmem : stage ∈ stages settings := by
    rw [hlist]
    simp
  refine ⟨stage, hmem, hstage, fun exchange hexchange other hother => ?_⟩
  have hreached : other ∈ passed ++ [stage] := honly exchange hexchange other hother
  refine ⟨by rw [hlist]; exact List.mem_append_left _ hreached, ?_⟩
  rcases List.mem_append.1 hreached with hpassed | hself
  · have hpairs := stages_pairwise settings
    rw [hlist, List.append_assoc, List.pairwise_append] at hpairs
    exact Nat.le_of_lt (hpairs.2.2 other hpassed stage (by simp))
  · exact Nat.le_of_eq (congrArg Stage.rank (List.mem_singleton.1 hself))

end Staged

/-! ## Starts in a scene -/

/-- Whether a dialogue has begun a loop. -/
def BeganLoop (dialogue : List (Exchange signature)) : Prop :=
  ∃ exchange ∈ dialogue, ¬ exchange.request.Calm

/-- No loop is begun but in the stages for that. -/
theorem Request.IsOf.calm {stage : Stage} {r : Request} (h : r.IsOf stage)
    (hspawn : stage.rank < Stage.updates.rank ∨ ∀ activity, r ≠ .spawn activity) : r.Calm := by
  rcases h with hstage | ⟨event, rfl⟩
  · cases r with
    | spawn activity =>
      -- each activity has its stage, and those of the loops come last
      have hrank := hspawn.resolve_right fun hnot => hnot activity rfl
      cases activity with
      | updates =>
        cases hstage
        exact absurd hrank (by decide)
      | keepAlive =>
        cases hstage
        exact absurd hrank (by decide)
      | health => trivial
      | _ => cases hstage
    | leaveImages => cases hstage
    | tickOrShutdown nextTick seen => cases hstage
    | _ => trivial
  · trivial

/-- A start asks for nothing but what belongs to some stage. -/
theorem isOf_start (settings : Settings) :
    (start settings).Only (S := signature) fun r => ∃ stage, r.IsOf stage := by
  rw [start_eq_inOrder]
  induction stages settings with
  | nil => trivial
  | cons stage list ih =>
    refine Only.bind (isOf_action.mono fun r hr => ⟨stage, hr⟩) fun result => ?_
    cases result with
    | ok => exact ih
    | error e => trivial

section Scenes

variable {ρ : Type} [Backend ρ] {settings : Settings} {s : Scene ρ} {who : Nat}
  {dialogue : List (Exchange signature)} {rest : Action (Except ServiceError Unit)}

/-- Where a start is: it came to `rest` by a dialogue, and unless it began a loop everybody else
only attends. -/
structure Scene.Starting (settings : Settings) (who : Nat) (alone : Prop)
    (dialogue : List (Exchange signature)) (rest : Action (Except ServiceError Unit))
    (s : Scene ρ) : Prop where
  leads : Leads (start settings) dialogue rest
  came : s.Came who dialogue (.started <$> rest)
  attended : alone → BeganLoop dialogue ∨ s.Attended (some who)

/-- A start begins with nothing done by it, and with nothing done by others if it is alone. -/
theorem Scene.starting_start {alone : Prop} (hnumbered : s.Numbered)
    (hattended : alone → s.Attended none) :
    (s.meet settings (.uses .start)).Starting settings s.tasks.length alone []
      (start settings) := by
  refine ⟨.here, hnumbered.came (.started <$> start settings), fun halone => .inr ?_⟩
  have hweak := (hattended halone).weaken (some s.tasks.length)
  refine { hweak with tasks := fun other script hother htask => ?_ }
  -- the only task that is new is the start itself
  have hne : other ≠ s.tasks.length := fun heq => hother (congrArg some heq.symm)
  refine (hattended halone).tasks other script nofun ?_
  have hlt : other < s.tasks.length := by
    have hlt := (List.getElem?_eq_some_iff.1 htask).1
    have hlength : (s.meet settings (.uses .start)).tasks.length = s.tasks.length + 1 :=
      List.length_append
    omega
  exact (List.getElem?_append_left hlt).symm.trans htask

/-- One more occurrence, which is no other start if the start is alone. -/
theorem Scene.Starting.meet {alone : Prop} (h : s.Starting settings who alone dialogue rest)
    {occurrence : Occurrence ρ} (hstart : alone → occurrence ≠ .uses .start) :
    ∃ dialogue' rest',
      (s.meet settings occurrence).Starting settings who alone dialogue' rest' := by
  have honly : rest.Only (S := signature) fun r => ∃ stage, r.IsOf stage :=
    (h.leads.only (isOf_start settings)).2
  rcases h.came.step settings (occurrence.move settings s) with
    ⟨hcame, hwaits⟩ | ⟨r, next, answer, newsFirst, hrest, hmove, -, heq, hcame⟩
  · -- the start stays where it is
    refine ⟨dialogue, rest, h.leads, hcame, fun halone => ?_⟩
    rcases h.attended halone with hbegan | hattended
    · exact .inl hbegan
    · refine .inr ?_
      by_cases hself : ∃ newsFirst, occurrence = .goesOn who newsFirst
      · obtain ⟨newsFirst, rfl⟩ := hself
        refine hattended.goOn_exempt (h.came.stands.imp And.left fun ⟨_, _, hover, _⟩ => hover)
          (fun r next hask => ?_) newsFirst
        -- what may have to wait is no spawn
        have hnone : (s.world.choose newsFirst who r).1 = none := hwaits r next newsFirst hask rfl
        obtain ⟨stage, hstage⟩ := (hask ▸ honly.map Result.started).1
        refine hstage.calm (.inr fun activity hspawn => ?_)
        subst hspawn
        cases hnone
      · refine hattended.meet (hstart halone) fun other newsFirst hother hsame => hself ?_
        cases hsame
        exact ⟨newsFirst, hother⟩
  · -- the start is answered
    cases rest with
    | done result => cases hrest
    | ask r' next' =>
      cases hrest
      refine ⟨dialogue ++ [⟨r, answer⟩], next' answer, h.leads.concat answer, hcame,
        fun halone => ?_⟩
      rcases h.attended halone with ⟨exchange, hmem, hloop⟩ | hattended
      · exact .inl ⟨exchange, List.mem_append_left _ hmem, hloop⟩
      · by_cases hcalm : Request.Calm r
        · refine .inr ?_
          show (s.step settings (occurrence.move settings s)).Attended (some who)
          rw [heq]
          exact hattended.answered newsFirst hcalm fun hwho => absurd rfl hwho
        · exact .inl ⟨⟨r, answer⟩, List.mem_append_right _ (List.mem_singleton.2 rfl), hcalm⟩

/-- Whatever happens, a start is somewhere on its way. -/
theorem Scene.Starting.live {alone : Prop} (h : s.Starting settings who alone dialogue rest)
    {occurrences : List (Occurrence ρ)} (hstart : alone → .start ∉ uses occurrences) :
    ∃ dialogue' rest',
      (s.live settings occurrences).Starting settings who alone dialogue' rest' := by
  induction occurrences generalizing s dialogue rest with
  | nil => exact ⟨dialogue, rest, h⟩
  | cons occurrence occurrences ih =>
    have hfirst : alone → occurrence ≠ .uses .start := by
      rintro halone rfl
      exact hstart halone List.mem_cons_self
    obtain ⟨dialogue', rest', hmeet⟩ := h.meet hfirst
    refine ih hmeet fun halone hmem => hstart halone ?_
    cases occurrence with
    | uses use => exact List.mem_cons_of_mem _ hmem
    | _ => exact hmem

/-- Every start goes through its stages in order and stops at the first that fails, whatever goes
on before, beside and after it.

- The start had a dialogue, its calls are those of the dialogue, and it is still under way or ended
  with the result of the dialogue.
- The dialogue goes through the stages in order: each was asked for what it does and for nothing of
  another stage, and only the last one may be under way or may have failed, with its own error.
- The error of a start is fatal, and nothing of a later stage was asked for.  If nobody else starts
  the service, then nothing else happened to it: no loop was begun, no keep-alive pass and no
  updates, and everybody else made only calls that tend containers. -/
theorem start_staged (settings : Settings) (backend : ρ) (images : ImageStore) (probe : Probe)
    (before after : List (Occurrence ρ)) :
    let s₀ := (Scene.fresh backend images probe).live settings before
    let who := s₀.tasks.length
    let s := s₀.live settings (.uses .start :: after)
    ∃ dialogue rest,
      (Leads (start settings) dialogue rest ∧ s.Came who dialogue (.started <$> rest)) ∧
      Staged settings (stages settings) dialogue rest.outcome? ∧
      ∀ e, rest.outcome? = some (.error e) →
        e.severity = .fatal ∧
        (∃ stage ∈ stages settings, stage.HasError settings e ∧
          ∀ exchange ∈ dialogue, ∀ other, exchange.request.stage? = some other →
            other ∈ stages settings ∧ other.rank ≤ stage.rank) ∧
        (.start ∉ uses before → .start ∉ uses after →
          (∀ call ∈ s.calls, call.1 ≠ who → tends call.2 = true) ∧
          s.passes = [] ∧ s.world.updates = .absent) := by
  intro s₀ who s
  have hfirst : (s₀.meet settings (.uses .start)).Starting settings who
      (.start ∉ uses before ∧ .start ∉ uses after) [] (start settings) :=
    Scene.starting_start ((Scene.numbered_fresh backend images probe).live before)
      fun halone => (Scene.attended_fresh backend images probe).live halone.1
  obtain ⟨dialogue, rest, hleads, hcame, hattended⟩ :=
    hfirst.live (And.right : _ → .start ∉ uses after)
  have hstaged : Staged settings (stages settings) dialogue rest.outcome? :=
    staged_of_leads (start_eq_inOrder settings ▸ hleads)
  refine ⟨dialogue, rest, ⟨hleads, hcame⟩, hstaged, fun e he => ?_⟩
  rw [he] at hstaged
  obtain ⟨stage, hmem, hstage, honly⟩ := hstaged.failed
  refine ⟨hstage.fatal, ⟨stage, hmem, hstage, honly⟩, fun hbefore hafter => ?_⟩
  rcases hattended ⟨hbefore, hafter⟩ with ⟨exchange, hexchange, hloop⟩ | hattended
  · -- a stage that fails comes before the loops are begun
    exfalso
    obtain ⟨other, hother⟩ := (hleads.only (isOf_start settings)).1 exchange hexchange
    refine hloop (hother.calm ?_)
    rcases hother with hother' | ⟨event, htold⟩
    · exact .inl (Nat.lt_of_le_of_lt (honly exchange hexchange other hother').2 hstage.rank_lt)
    · refine .inr fun activity hspawn => ?_
      rw [htold] at hspawn
      cases hspawn
  · refine ⟨fun call hcall hne => hattended.calls call hcall fun heq => ?_,
      hattended.passes, hattended.updates⟩
    exact hne (Option.some.inj heq).symm

end Scenes

namespace Sample

/-- A service that can get no image. -/
def imageless : Scene Container.Memory :=
  (Scene.fresh ({} : Container.Memory) (.seeded (Crew.Sample.refs "sup:v0"))
    (.failingAt [] none)).live Crew.developmentSettings [.changes (.fail .ensureImage)]

/-- Its start, which comes to its end. -/
def unlaunched : Scene Container.Memory :=
  imageless.live Crew.developmentSettings (.uses .start :: List.replicate 30 (.goesOn 0 false))

/-- Why the updater was not launched; an update would ask again later. -/
def imageMissing : ReplaceError :=
  ⟨.updater, .ensureImage, "upd:v1", none, Container.Memory.toldToFail .ensureImage⟩

theorem ended_unlaunched :
    unlaunched.ended = [(0, .result (.started (.error (.embeddedLaunch .updater imageMissing))))] :=
  rfl

end Sample

/-- An image that could be asked for again later ends a start for good: no container is started. -/
theorem start_staged_imageless :
    let e : ServiceError := .embeddedLaunch .updater Sample.imageMissing
    Sample.imageMissing.severity = .recoverable ∧ e.severity = .fatal ∧
      Sample.unlaunched.calls.map (·.2.operation) = [.list, .nuke, .ensureImage] ∧
      Sample.unlaunched.world.spawned = [.health] ∧ Sample.unlaunched.world.updates = .absent ∧
      ∃ dialogue, Staged Crew.developmentSettings (stages Crew.developmentSettings) dialogue
        (some (.error e)) := by
  intro e
  obtain ⟨dialogue, rest, ⟨-, hcame⟩, hstaged, hfails⟩ :=
    start_staged Crew.developmentSettings ({} : Container.Memory)
      (.seeded (Crew.Sample.refs "sup:v0")) (.failingAt [] none)
      [.changes (.fail .ensureImage)] (List.replicate 30 (.goesOn 0 false))
  have hcame : Sample.unlaunched.Came 0 dialogue (.started <$> rest) := hcame
  -- the start ended, so its dialogue led to that end
  have hstands := hcame.stands
  rw [Scene.endedOf, Sample.ended_unlaunched] at hstands
  have houtcome : rest.outcome? = some (.error e) := by
    rcases hstands with ⟨-, hnone⟩ | ⟨result, hresult, -, hover⟩
    · cases hnone
    · cases hover
      cases rest with
      | ask r next => cases hresult
      | done outcome =>
        cases hresult
        rfl
  obtain ⟨hfatal, -, hothers⟩ := hfails e houtcome
  obtain ⟨-, -, hupdates⟩ := hothers (by decide) (by decide)
  rw [houtcome] at hstaged
  have hcalls : Sample.unlaunched.calls.map (·.2.operation) = [.list, .nuke, .ensureImage] := by
    decide +kernel
  have hspawned : Sample.unlaunched.world.spawned = [.health] := by decide +kernel
  exact ⟨rfl, hfatal, hcalls, hspawned, hupdates, dialogue, hstaged⟩

end Service
end Caretaker
