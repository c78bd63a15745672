import Caretaker.Proofs.Alone
import Caretaker.Proofs.BlindMemory
import Caretaker.Proofs.CrewAlike
import Caretaker.Proofs.Usage

/-!
# The passphrase stays in its file

Two services that are set up alike but for the passphrase, and to which the same happens, go on in
step: their tasks make requests that correspond and are given answers that do.  So everything that
can be seen of them is the same, and the supervisor's file for the passphrase is all that differs.

Main definitions:

- `Request.Matches`: which requests of the service correspond.
- `Scene.Alike`: services that show the same.
- `Occurrence.Discreet`: what happens from outside without a look at the passphrase.

Main statements:

- `alike_task`, `alike_round`: what a service does is alike whatever the passphrase is.
- `Scene.Alike.meet`: services stay alike when the same happens to them.
- `passphrase_in_file`: so two runs cannot be told apart but by that file.
-/

namespace Caretaker.Service

open Container (Backend Blind)
open Script Service.Action

/-! ## Scripts -/

/-- Whether a request is one of operations on the crew. -/
def Request.isOfCrew : Request → Bool
  | .crew _ => true
  | _ => false

/-- Which requests of the service correspond, with their answers: those of operations on the crew do
as there, and all others are the same. -/
inductive Request.Matches : (r r' : Request) → (r.Answer → r'.Answer → Prop) → Prop where
  | crew {r r' : Crew.Request} {told : r.Answer → r'.Answer → Prop} (h : r.Matches r' told) :
      Matches (.crew r) (.crew r') told
  | same (r : Request) (h : r.isOfCrew = false) : Matches r r Eq

/-- Whether two things that the service does are alike. -/
abbrev Action.Alike {α α' : Type} (post : α → α' → Prop) (action : Action α)
    (action' : Action α') : Prop :=
  Script.Alike (S := signature) Request.Matches post action action'

theorem alike_ofCrew {α α' : Type} {post : α → α' → Prop} {t : Crew.Transaction α}
    {t' : Crew.Transaction α'} (h : t.Alike post t') : (ofCrew t).Alike post (ofCrew t') := by
  induction h with
  | done h => exact .done h
  | ask h _ ih => exact .ask (.crew h) ih

/-- A request that is none of the crew makes no difference. -/
theorem alike_asks (r : Request) (h : r.isOfCrew = false) :
    (Action.ask r).Alike Eq (Action.ask r) :=
  .ask (.same r h) fun _ _ => .done

theorem alike_log (component : Component) (level : Level) (message : String)
    (fields : List (String × EventValue)) :
    (Action.log component level message fields).Alike Eq
      (Action.log component level message fields) :=
  .ask (.crew (.log _)) fun _ _ => .done

/-- A call that is no start makes no difference. -/
theorem alike_call (c : Container.Call) (h : c.operation ≠ .start) :
    (Action.call c).Alike Eq (Action.call c) :=
  .ask (.crew (.call (.same c h))) fun _ _ => .done

section Scripts

variable {settings : Settings}

theorem alike_startupCheck (passphrase : String) :
    (startupCheck settings).Alike Eq (startupCheck { settings with passphrase }) := by
  have htrace : (startupCheck.checkTrace settings).Alike Eq
      (startupCheck.checkTrace { settings with passphrase }) := by
    show Action.Alike Eq (if settings.traceEnabled then _ else _)
      (if settings.traceEnabled then _ else _)
    split
    · refine .bind_eq (alike_asks (.check _) rfl) fun traced => ?_
      cases traced with
      | error cause => exact .done rfl
      | ok block => exact .bind_eq (alike_log _ _ _ _) fun _ => .done rfl
    · exact .done rfl
  refine .bind_eq (alike_call .list nofun) fun listed => ?_
  cases listed with
  | error cause => exact .done rfl
  | ok containers =>
    refine .bind_eq (alike_log _ _ _ _) fun _ => ?_
    refine .bind_eq (alike_asks (.check _) rfl) fun scanned => ?_
    cases scanned with
    | error cause => exact .done rfl
    | ok block =>
      refine .bind_eq (alike_log _ _ _ _) fun _ => .bind_eq htrace fun traced => ?_
      cases traced with
      | error e => exact .done rfl
      | ok =>
        refine .bind_eq (alike_asks (.check _) rfl) fun accepted => ?_
        cases accepted with
        | error cause => exact .done rfl
        | ok => exact .bind_eq (alike_log _ _ _ _) fun _ => .done rfl

theorem alike_launchEmbedded (passphrase : String) (role : Role) :
    (launchEmbedded settings role).Alike Eq
      (launchEmbedded { settings with passphrase } role) := by
  refine .bind_eq (alike_asks .embeddedImages rfl) fun refs => ?_
  refine .bind_eq (alike_log _ _ _ _) fun _ => ?_
  refine .bind_eq (alike_ofCrew (Crew.alike_replace passphrase)) fun result => ?_
  cases result with
  | ok outcome => exact .done rfl
  | error cause => exact .done rfl

theorem alike_launchFirst (passphrase : String) :
    (launchFirst settings).Alike Eq (launchFirst { settings with passphrase }) := by
  show Action.Alike Eq (if settings.autoUpdate then _ else _)
    (if settings.autoUpdate then _ else _)
  split
  · refine .bind_eq (alike_launchEmbedded passphrase .updater) fun launched => ?_
    cases launched with
    | error e => exact .done rfl
    | ok =>
      refine .bind_eq (alike_asks .takeImages rfl) fun taken => ?_
      cases taken with
      | error cause => exact .done rfl
      | ok => exact .bind_eq (alike_asks (.spawn .updates) rfl) fun _ => .done rfl
  · exact .bind_eq (alike_log _ _ _ _) fun _ => alike_launchEmbedded passphrase .supervisor

/-- A start is alike whatever the passphrase is. -/
theorem alike_start (passphrase : String) :
    (start settings).Alike Eq (start { settings with passphrase }) := by
  refine .bind_eq (alike_startupCheck passphrase) fun checked => ?_
  cases checked with
  | error cause => exact .done rfl
  | ok =>
    refine .bind_eq (alike_call .nuke nofun) fun nuked => ?_
    cases nuked with
    | error cause => exact .done rfl
    | ok =>
      refine .bind_eq (alike_asks (.spawn .health) rfl) fun _ => ?_
      refine .bind_eq (alike_launchFirst passphrase) fun launched => ?_
      cases launched with
      | error e => exact .done rfl
      | ok => exact .bind_eq (alike_asks (.spawn .keepAlive) rfl) fun _ => .done rfl

theorem alike_joinUpdates : joinUpdates.Alike Eq joinUpdates := by
  refine .bind_eq (alike_asks .claimUpdates rfl) fun claimed => ?_
  cases claimed with
  | true => exact alike_asks .awaitUpdates rfl
  | false => exact .done rfl

theorem alike_checkHealth : (checkHealth settings).Alike Eq (checkHealth settings) := by
  refine .bind_eq (alike_ofCrew Crew.alike_roleStatuses) fun statuses => ?_
  exact .done rfl

theorem alike_serve (timestamp method target : String) :
    (serve settings timestamp method target).Alike Eq (serve settings timestamp method target) := by
  unfold serve
  split
  · refine .bind_eq alike_checkHealth fun report => ?_
    exact .done rfl
  · exact .done rfl

/-- What a service does for who uses it is alike whatever the passphrase is. -/
theorem alike_task (passphrase : String) (use : Use) :
    (use.task settings).Alike Eq (use.task { settings with passphrase }) := by
  have hmap : ∀ {α β : Type} (f : α → β) (value value' : α), value = value' →
      f value = f value' := fun f _ _ h => congrArg f h
  refine .map ?_ (hmap Ending.result)
  cases use with
  | start => exact .map (alike_start passphrase) (hmap _)
  | stop => exact .map (alike_ofCrew Crew.alike_stopAll) (hmap _)
  | join => exact .map alike_joinUpdates (hmap _)
  | report => exact .map alike_checkHealth (hmap _)
  | request timestamp method target => exact .map (alike_serve timestamp method target) (hmap _)

theorem alike_concludeUpdate (updates : List Crew.RoleUpdate) :
    (concludeUpdate updates).Alike Eq (concludeUpdate updates) := by
  induction updates with
  | nil => exact .done rfl
  | cons update updates ih =>
    obtain ⟨role, e | ⟨image, containerId⟩ | _⟩ := update
    · show Action.Alike Eq (if e.isFatal then _ else _) (if e.isFatal then _ else _)
      split
      · exact .bind_eq (alike_asks (.fatal _) rfl) fun _ => .done rfl
      · exact .bind_eq (alike_log _ _ _ _) fun _ => ih
    · exact .bind_eq (alike_log _ _ _ _) fun _ => ih
    · show Action.Alike Eq (if role = .supervisor then _ else _)
        (if role = .supervisor then _ else _)
      split
      · exact .bind_eq (alike_log _ _ _ _) fun _ => ih
      · exact .bind_eq (alike_log _ _ _ _) fun _ => ih

theorem alike_updatesRound (passphrase : String) :
    (updatesRound settings).Alike Eq (updatesRound { settings with passphrase }) := by
  refine .bind_eq (alike_asks .nextImages rfl) fun item => ?_
  cases item with
  | none =>
    refine .bind_eq (alike_log _ _ _ _) fun _ => ?_
    exact .bind_eq (alike_asks .leaveImages rfl) fun _ => .done rfl
  | some refs =>
    refine .bind_eq (alike_log _ _ _ _) fun _ => ?_
    refine .bind_eq (alike_ofCrew (Crew.alike_apply passphrase _)) fun updates => ?_
    refine .bind_eq (alike_concludeUpdate updates) fun goesOn => ?_
    cases goesOn with
    | true => exact .done rfl
    | false => exact .bind_eq (alike_asks .leaveImages rfl) fun _ => .done rfl

theorem alike_keepAliveRound (nextTick seen : Nat) :
    (keepAliveRound settings nextTick seen).Alike Eq (keepAliveRound settings nextTick seen) := by
  refine .bind_eq (alike_asks (.tickOrShutdown nextTick seen) rfl) fun wake => ?_
  rcases wake with _ | news
  · refine .bind_eq (alike_ofCrew (Crew.alike_keepAlive _)) fun restarts => ?_
    show Action.Alike Eq (if 0 < restarts then _ else _) (if 0 < restarts then _ else _)
    split
    · exact .bind_eq (alike_log _ _ _ _) fun _ => .done rfl
    · exact .done rfl
  · show Action.Alike Eq (if news.endsWatch then _ else _) (if news.endsWatch then _ else _)
    split
    · exact .bind_eq (alike_log _ _ _ _) fun _ => .done rfl
    · cases news <;> exact .done rfl

/-- One round of an activity is alike whatever the passphrase is. -/
theorem alike_round (passphrase : String) (activity : Activity) :
    (activity.round settings).Alike Eq (activity.round { settings with passphrase }) := by
  cases activity with
  | updates => exact .bind_eq (alike_log _ _ _ _) fun _ => .done rfl
  | updatesFrom => exact alike_updatesRound passphrase
  | keepAlive =>
    refine .bind_eq (alike_asks .now rfl) fun now => ?_
    exact .bind_eq (alike_log _ _ _ _) fun _ => .done rfl
  | keepAliveFrom nextTick seen => exact alike_keepAliveRound nextTick seen
  | health =>
    refine .bind_eq (alike_asks (.listen _) rfl) fun free => ?_
    cases free with
    | true => exact .bind_eq (alike_log _ _ _ _) fun _ => .done rfl
    | false => exact .bind_eq (alike_log _ _ _ _) fun _ => .done rfl
  | healthFrom seen =>
    refine .bind_eq (alike_asks (.shutdown seen) rfl) fun news => ?_
    rcases news with ⟨sent, _ | _⟩ | _
    · exact .done rfl
    · exact .bind_eq (alike_asks (.leave _) rfl) fun _ => .done rfl
    · exact .bind_eq (alike_asks (.leave _) rfl) fun _ => .done rfl

theorem alike_ending (settings : Settings) (passphrase : String) (activity : Activity) :
    Action.Alike Eq (Ending.round <$> activity.round settings)
      (Ending.round <$> activity.round { settings with passphrase }) :=
  .map (alike_round passphrase activity) fun _ _ hsame => congrArg Ending.round hsame

end Scripts

/-! ## Worlds -/

/-- Whether two worlds show the same: the worlds of the crew do, and all else is the same. -/
structure World.Alike {ρ : Type} [Backend ρ] [Blind ρ] (w w' : World ρ) : Prop where
  crew : w.crew.Alike w'.crew
  rest : w' = { w with crew := w'.crew }

theorem rel_self {α : Type} (a : Option α) : Option.Rel Eq a a := by
  cases a with
  | none => exact .none
  | some value => exact .some rfl

section Worlds

variable {ρ : Type} [Backend ρ] [Blind ρ] {w w' : World ρ}

/-- Requests that correspond have to wait together, or are given answers that correspond. -/
theorem World.Alike.choose (h : w.Alike w') (newsFirst : Bool) (who : Nat) {r r' : Request}
    {told : r.Answer → r'.Answer → Prop} (hr : r.Matches r' told) :
    Option.Rel told (w.choose newsFirst who r).1 (w'.choose newsFirst who r').1 ∧
      (w.choose newsFirst who r).2.Alike (w'.choose newsFirst who r').2 := by
  -- the worlds differ in that of the crew only, so all others find what they ask for the same
  obtain ⟨hcrew, hrest⟩ := h
  generalize w'.crew = crew' at hcrew hrest
  subst hrest
  cases hr with
  | crew hr =>
    obtain ⟨hanswer, hstays⟩ := hcrew.attempt who hr
    exact ⟨hanswer, hstays, rfl⟩
  | same r hr =>
    cases r with
    | crew r => cases hr
    | check c =>
      have hevents : (w.probe.events c).reverse ++ w.crew.events =
          (w.probe.events c).reverse ++ crew'.events := by rw [hcrew.events]
      exact ⟨.some rfl, { hcrew with events := hevents }, rfl⟩
    | spawn activity =>
      simp only [World.choose, World.attempt, World.noteSpawn]
      refine ⟨.some rfl, ?_⟩
      split <;> exact ⟨hcrew, rfl⟩
    | nextImages =>
      simp only [World.choose, World.attempt]
      split
      · exact ⟨.some rfl, hcrew, rfl⟩
      · exact ⟨.none, hcrew, rfl⟩
      · exact ⟨.some rfl, hcrew, rfl⟩
    | tickOrShutdown nextTick seen =>
      simp only [World.choose, World.attempt]
      split
      · exact ⟨.some rfl, hcrew, rfl⟩
      · split
        · exact ⟨.some rfl, hcrew, rfl⟩
        · exact ⟨rel_self _, hcrew, rfl⟩
    | listen address =>
      show Option.Rel _ (if w.isFree address then _ else _ : Option _ × World ρ).1
        (if w.isFree address then _ else _ : Option _ × World ρ).1 ∧ World.Alike
          (if w.isFree address then _ else _ : Option _ × World ρ).2
          (if w.isFree address then _ else _ : Option _ × World ρ).2
      split
      · exact ⟨.some rfl, hcrew, rfl⟩
      · exact ⟨.some rfl, hcrew, rfl⟩
    | _ => exact ⟨rel_self _, hcrew, rfl⟩

/-- Something changes in both worlds that has nothing to do with the crew. -/
theorem World.Alike.change (h : w.Alike w') (f : World ρ → World ρ)
    (hf : ∀ crew, f { w with crew } = { f w with crew }) : (f w).Alike (f w') := by
  have hcrew : (f w).crew = w.crew := by
    have hself := congrArg World.crew (hf w.crew)
    exact hself
  have hcrew' : f w' = { f w with crew := w'.crew } := by
    rw [h.rest]
    exact hf w'.crew
  rw [hcrew']
  refine ⟨?_, rfl⟩
  rw [hcrew]
  exact h.crew

/-- The worlds of the crew are put for others that show the same. -/
theorem World.Alike.put (h : w.Alike w') {crew crew' : Crew.World ρ} (hcrew : crew.Alike crew') :
    World.Alike { w with crew } { w' with crew := crew' } := by
  refine ⟨hcrew, ?_⟩
  rw [h.rest]

end Worlds

/-! ## Scenes -/

/-- Calls without the passphrase, each with who made it. -/
def Scene.shownCalls {ρ : Type} (s : Scene ρ) : List (Nat × Container.Call) :=
  s.calls.map fun call => (call.1, call.2.concealed)

/-- Whether two services show the same: their tasks go on alike, and all that they tell, ended with
or called for shows the same. -/
structure Scene.Alike {ρ : Type} [Backend ρ] [Blind ρ] (s s' : Scene ρ) : Prop where
  world : s.world.Alike s'.world
  tasks : List.Forall₂ (Option.Rel (Action.Alike Eq)) s.tasks s'.tasks
  ended : s.ended = s'.ended
  passes : s.passes = s'.passes
  calls : s.shownCalls = s'.shownCalls

/-- Whether an occurrence makes no difference between passphrases either. -/
def Occurrence.Discreet {ρ : Type} [Backend ρ] [Blind ρ] : Occurrence ρ → Prop
  | .changes f => ∀ backend backend', Blind.alike backend backend' →
      Blind.alike (f backend) (f backend')
  | _ => True

/-- Calls that correspond show the same. -/
theorem Request.Matches.shownCalls {r r' : Request} {told : r.Answer → r'.Answer → Prop}
    (h : r.Matches r' told) (who : Nat) :
    (r.calls who).map (fun call => (call.1, call.2.concealed)) =
      (r'.calls who).map fun call => (call.1, call.2.concealed) := by
  cases h with
  | same r hr => rfl
  | crew h =>
    cases h with
    | call h => exact congrArg (fun call => [(who, call)]) h.concealed
    | _ => rfl

/-- A pass begins in both services or in none. -/
theorem Request.Matches.beginning {r r' : Request} {told : r.Answer → r'.Answer → Prop}
    (h : r.Matches r' told) (who clock : Nat) {answer : r.Answer} {answer' : r'.Answer}
    (htold : told answer answer') :
    Service.beginning who clock r answer = Service.beginning who clock r' answer' := by
  cases h with
  | crew h => rfl
  | same r hr => rw [htold]

namespace Scene

variable {ρ : Type} [Backend ρ] [Blind ρ] {settings : Settings} {s s' : Scene ρ}

/-- A task in both services makes its next request. -/
theorem Alike.asks (h : s.Alike s') {who : Nat} {r r' : Request}
    {told : r.Answer → r'.Answer → Prop} {next : r.Answer → Action Ending}
    {next' : r'.Answer → Action Ending}
    (htask : s.tasks[who]? = some (some (Script.ask (S := signature) r next)))
    (htask' : s'.tasks[who]? = some (some (Script.ask (S := signature) r' next')))
    (hr : r.Matches r' told)
    (hnext : ∀ answer answer', told answer answer' → (next answer).Alike Eq (next' answer'))
    (newsFirst : Bool) {settings settings' : Settings} :
    (s.goOn settings who newsFirst).Alike (s'.goOn settings' who newsFirst) := by
  obtain ⟨hanswer, hworld⟩ := h.world.choose newsFirst who hr
  rcases hchoose : s.world.choose newsFirst who r with ⟨answer, w⟩
  rcases hchoose' : s'.world.choose newsFirst who r' with ⟨answer', w'⟩
  rw [hchoose, hchoose'] at hanswer hworld
  change w.Alike w' at hworld
  cases hanswer with
  | none =>
    rw [goOn_of_waits htask hchoose, goOn_of_waits htask' hchoose']
    exact { h with world := hworld }
  | @some answer answer' htold =>
    rw [goOn_of_answer htask hchoose, goOn_of_answer htask' hchoose']
    -- whether a pass begins is told by the clock, which both services share
    have hclock : w'.clock = w.clock := by rw [hworld.rest]
    refine { h with
      world := hworld
      tasks := forall₂_set h.tasks (.some (hnext answer answer' htold)) who
      passes := ?_
      calls := ?_ }
    · show s.passes ++ _ = s'.passes ++ _
      rw [h.passes, hclock, hr.beginning who w.clock htold]
    · show (s.calls ++ _).map _ = (s'.calls ++ _).map _
      rw [List.map_append, List.map_append, hr.shownCalls who]
      exact congrArg (· ++ _) h.calls

theorem Alike.goOn (h : s.Alike s') (passphrase : String) (who : Nat) (newsFirst : Bool) :
    (s.goOn settings who newsFirst).Alike
      (s'.goOn { settings with passphrase } who newsFirst) := by
  have hwho := forall₂_getElem? h.tasks who
  cases htask : s.tasks[who]? with
  | none =>
    rw [htask] at hwho
    cases htask' : s'.tasks[who]? with
    | some task' =>
      rw [htask'] at hwho
      cases hwho
    | none =>
      unfold Scene.goOn
      rw [htask, htask']
      exact h
  | some task =>
    rw [htask] at hwho
    generalize htask' : s'.tasks[who]? = found at hwho
    obtain ⟨halike⟩ := hwho
    cases halike with
    | none =>
      rw [goOn_ended htask, goOn_ended htask']
      exact h
    | some halike =>
      cases halike with
      | @done ending _ hsame =>
        -- both end with the same, or both begin the next round of the same activity
        subst hsame
        rcases ending with result | _ | activity
        · rw [goOn_of_end htask rfl, goOn_of_end htask' rfl]
          exact { h with
            tasks := forall₂_set h.tasks .none who
            ended := congrArg (_ :: ·) h.ended }
        · rw [goOn_of_end htask rfl, goOn_of_end htask' rfl]
          exact { h with
            tasks := forall₂_set h.tasks .none who
            ended := congrArg (_ :: ·) h.ended }
        · rw [goOn_of_resume htask rfl, goOn_of_resume htask' rfl]
          have hround := alike_ending settings passphrase activity
          exact { h with tasks := forall₂_set h.tasks (.some hround) who }
      | ask hr hnext =>
        exact h.asks htask htask' hr hnext newsFirst

/-- The same happens to two services that differ in the passphrase. -/
theorem Alike.meet (h : s.Alike s') (passphrase : String) {occurrence : Occurrence ρ}
    (hoccurrence : occurrence.Discreet) :
    (s.meet settings occurrence).Alike (s'.meet { settings with passphrase } occurrence) := by
  cases occurrence with
  | uses use =>
    refine { h with tasks := List.rel_append h.tasks (.cons (.some ?_) .nil) }
    exact alike_task passphrase use
  | adopts =>
    -- the same activities were spawned, and each is alike in its rounds
    have hspawned : s'.world.spawned = s.world.spawned := by rw [h.world.rest]
    refine { h with
      world := h.world.change (fun w => { w with spawned := [] }) fun _ => rfl
      tasks := List.rel_append h.tasks ?_ }
    rw [hspawned, List.map_map, List.map_map, List.forall₂_map_left_iff,
      List.forall₂_map_right_iff, List.forall₂_same]
    exact fun activity _ => .some (alike_ending settings passphrase activity)
  | goesOn who newsFirst => exact h.goOn passphrase who newsFirst
  | elapses milliseconds =>
    exact { h with
      world := h.world.change (fun w => { w with clock := w.clock + milliseconds }) fun _ => rfl }
  | sends value =>
    have hshutdown : s'.world.shutdown = s.world.shutdown := by rw [h.world.rest]
    show (s.step settings (.sends value)).Alike
      (s'.step { settings with passphrase } (.sends value))
    by_cases hopen : s.world.shutdown.isOpen = true
    · simp only [Scene.step, if_pos hopen, if_pos (hshutdown ▸ hopen)]
      exact { h with
        world := h.world.change (fun w => { w with shutdown := w.shutdown.send value })
          fun _ => rfl }
    · simp only [Scene.step, if_neg hopen, if_neg (hshutdown ▸ hopen)]
      exact h
  | closes =>
    exact { h with
      world := h.world.change (fun w => { w with shutdown := w.shutdown.close }) fun _ => rfl }
  | gates gated => exact { h with world := h.world.put { h.world.crew with gated := rfl } }
  | images step =>
    exact { h with
      world := h.world.change (fun w => { w with images := (w.images.step step).2 })
        fun _ => rfl }
  | changes f =>
    have hbackend := hoccurrence _ _ h.world.crew.backend
    exact { h with world := h.world.put { h.world.crew with backend := hbackend } }

/-- Whatever happens, services that differ in the passphrase show the same. -/
theorem Alike.live (h : s.Alike s') (passphrase : String) {occurrences : List (Occurrence ρ)}
    (hoccurrences : ∀ occurrence ∈ occurrences, occurrence.Discreet) :
    (s.live settings occurrences).Alike
      (s'.live { settings with passphrase } occurrences) := by
  induction occurrences generalizing s s' with
  | nil => exact h
  | cons occurrence rest ih =>
    refine ih (h.meet passphrase (hoccurrences occurrence List.mem_cons_self)) ?_
    exact fun later hmem => hoccurrences later (List.mem_cons_of_mem _ hmem)

theorem alike_fresh (backend : ρ) (images : ImageStore) (probe : Probe) :
    (fresh backend images probe).Alike (fresh backend images probe) where
  world := ⟨⟨Blind.refl backend, rfl, rfl, rfl, rfl, rfl⟩, rfl⟩
  tasks := .nil
  ended := rfl
  passes := rfl
  calls := rfl

end Scene

/-- Two services that are set up alike but for the passphrase, and to which the same happens on
backends that answer alike, cannot be told apart but by the supervisor's file for it.

- They tell the same in the log.
- They make the same calls with the same targets, and the descriptors of what they start show the
  same.
- Their slots show the same, and their backends differ in no more than that.
- What their tasks end with is the same: results, errors, health reports and responses.
- All else is the same as well: what they checked, took from the image store, served, and could not
  go on from.
-/
theorem passphrase_in_file {ρ : Type} [Backend ρ] [Blind ρ] (settings : Settings)
    (passphrase : String) (backend : ρ) (images : ImageStore) (probe : Probe)
    (occurrences : List (Occurrence ρ))
    (hoccurrences : ∀ occurrence ∈ occurrences, occurrence.Discreet) :
    let s := (Scene.fresh backend images probe).live settings occurrences
    let s' := (Scene.fresh backend images probe).live { settings with passphrase } occurrences
    s.world.crew.events = s'.world.crew.events ∧
    (s.calls.map (fun call => (call.1, call.2.operation, call.2.target)) =
        s'.calls.map (fun call => (call.1, call.2.operation, call.2.target)) ∧
      s.shownCalls = s'.shownCalls) ∧
    (s.world.crew.roster.concealed = s'.world.crew.roster.concealed ∧
      s.world.crew.lastKnown.concealed = s'.world.crew.lastKnown.concealed ∧
      Blind.alike s.world.crew.backend s'.world.crew.backend) ∧
    s.ended = s'.ended ∧
    s'.world = { s.world with crew := s'.world.crew } ∧ s.passes = s'.passes := by
  intro s s'
  have h : s.Alike s' := (Scene.alike_fresh backend images probe).live passphrase hoccurrences
  have htargets : ∀ s : Scene ρ,
      s.calls.map (fun call => (call.1, call.2.operation, call.2.target)) =
        s.shownCalls.map (fun call => (call.1, call.2.operation, call.2.target)) := by
    intro s
    simp [Scene.shownCalls]
  refine ⟨h.world.crew.events, ⟨?_, h.calls⟩,
    ⟨h.world.crew.roster, h.world.crew.lastKnown, h.world.crew.backend⟩, h.ended, h.world.rest,
    h.passes⟩
  rw [htargets s, htargets s', h.calls]

namespace Sample

/-- The service is started, its container crashes and is restarted, and somebody asks for a
report. -/
def crashing : List (Occurrence Container.Memory) :=
  .uses .start :: List.replicate 40 (.goesOn 0 false) ++
    [.adopts, .changes (.setState "ctr_000000000000" .exited)] ++
    List.replicate 4 (.goesOn 2 false) ++ .elapses 10000 :: List.replicate 8 (.goesOn 2 false) ++
    .uses .report :: List.replicate 10 (.goesOn 3 false)

/-- A development machine without auto-update, and a passphrase. -/
def guarded : Settings :=
  { Crew.developmentSettings with autoUpdate := false, passphrase := "open sesame" }

end Sample

/-- The supervisor is started with another passphrase, and nobody can tell. -/
theorem passphrase_in_file_crashing :
    let settings := Sample.guarded
    let fresh := Scene.fresh ({} : Container.Memory) (.seeded (Crew.Sample.refs "sup:v0"))
      (.failingAt [] none)
    let s := fresh.live settings Sample.crashing
    let s' := fresh.live { settings with passphrase := "mellon" } Sample.crashing
    (∀ occurrence ∈ Sample.crashing, occurrence.Discreet) ∧
    s.calls.map (fun call => (call.1, call.2.operation, call.2.target)) =
      [(0, .list, ""), (0, .nuke, ""), (0, .ensureImage, "sup:v0"),
        (0, .start, "node-runner-supervisor"), (0, .awaitStart, "ctr_000000000000"),
        (2, .inspect, "ctr_000000000000"), (2, .restart, "ctr_000000000000"),
        (3, .inspect, "ctr_000000000000")] ∧
    s.calls ≠ s'.calls ∧ s.shownCalls = s'.shownCalls ∧
    s.world.crew.events = s'.world.crew.events ∧ s.ended = s'.ended := by
  have hdiscreet : ∀ occurrence ∈ Sample.crashing, occurrence.Discreet := by
    intro occurrence hmem
    cases occurrence with
    | changes f =>
      have hf : f = .setState "ctr_000000000000" .exited := by
        simpa [Sample.crashing, List.mem_replicate] using hmem
      subst hf
      intro m m' hm
      show (m.setState _ _).concealed = (m'.setState _ _).concealed
      rw [← Container.Memory.setState_concealed, hm, Container.Memory.setState_concealed]
    | _ => trivial
  obtain ⟨hevents, ⟨-, hcalls⟩, -, hended, -⟩ := passphrase_in_file Sample.guarded "mellon"
    ({} : Container.Memory) (.seeded (Crew.Sample.refs "sup:v0")) (.failingAt [] none)
    Sample.crashing hdiscreet
  refine ⟨hdiscreet, ?_, ?_, hcalls, hevents, hended⟩
  · decide +kernel
  · decide +kernel

end Caretaker.Service
