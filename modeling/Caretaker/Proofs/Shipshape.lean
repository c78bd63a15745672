import Mathlib.Data.List.Perm.Basic
import Caretaker.Proofs.Commute
import Caretaker.Proofs.Stray

/-!
# Where nothing fails

In a memory where no call fails, every container is in the slot of its role and runs, if it was so
at first.  Every turn that gives a role an image goes through, and starts one container.

Main statements:

- `Ends.willing`: a replace goes through.
- `Shipshape.taken`: what turns keep, and how many containers they start.
- `Shipshape.length_infos`: there are two containers when both slots are filled.
-/

namespace Caretaker

namespace Crew

open Container (Memory)
open Container.Memory (Bears Counted Runs containers_perform isQuiet isSteady mem_of_answer)

/-! ## Starts -/

/-- Whether a call starts a container under a name. -/
def startsUnder (name : String) (exchange : Exchange) : Bool :=
  exchange.call.operation = .start && exchange.call.target = name

section Answered

variable {m m' : Memory} {calls : List Exchange}

/-- How often containers were started under a name is told by the calls. -/
theorem Answered.count_starts (h : Answered m calls m') (name : String) :
    (m'.targets .start).count name =
      (m.targets .start).count name + calls.countP (startsUnder name) := by
  induction calls generalizing m with
  | nil =>
    obtain rfl : m' = m := h
    rfl
  | cons exchange calls ih =>
    rw [ih h.2, List.countP_cons, Nat.add_comm (calls.countP _), ← Nat.add_assoc]
    congr 1
    have hcalls : (m.perform exchange.call).state.calls =
        m.calls ++ [⟨exchange.call.operation, exchange.call.target⟩] := by
      unfold Memory.calls
      rw [Memory.history_perform, List.reverse_cons]
    unfold Memory.targets
    rw [hcalls, List.filter_append, List.map_append, List.count_append]
    congr 1
    by_cases hstart : exchange.call.operation = .start
    · by_cases hname : exchange.call.target = name <;> simp [startsUnder, hstart, hname]
    · simp [startsUnder, hstart]

/-- Where nothing fails a call succeeds, unless something else can go wrong with it. -/
theorem Answered.succeeds (h : Answered m calls m') (hwilling : m.failing = [])
    (exchange : Exchange) (hmem : exchange ∈ calls) (hsteady : isSteady exchange.call = true) :
    ∃ value, exchange.answer = .ok value := by
  induction calls generalizing m with
  | nil => cases hmem
  | cons first calls ih =>
    rcases List.mem_cons.1 hmem with rfl | hmem
    · rcases hanswer : exchange.answer with cause | value
      · have hfails := mem_of_answer hsteady (h.1.symm.trans hanswer)
        rw [hwilling] at hfails
        cases hfails
      · exact ⟨value, rfl⟩
    · exact ih h.2 (by rw [Memory.failing_perform, hwilling]) hmem

/-- Calls that are quiet leave all containers as they are, and start none. -/
theorem Answered.quiet (h : Answered m calls m')
    (hquiet : ∀ exchange ∈ calls, isQuiet exchange.call = true) :
    m'.containers = m.containers ∧ m'.started = m.started := by
  induction calls generalizing m with
  | nil =>
    obtain rfl : m' = m := h
    exact ⟨rfl, rfl⟩
  | cons exchange calls ih =>
    obtain ⟨hcontainers, hstarted⟩ :=
      ih h.2 fun other hmem => hquiet other (List.mem_cons_of_mem _ hmem)
    obtain ⟨hcontainers', hstarted'⟩ :=
      containers_perform (m := m) (.inl (hquiet exchange List.mem_cons_self))
    exact ⟨hcontainers.trans hcontainers', hstarted.trans hstarted'⟩

theorem countP_quiet (name : String)
    (hquiet : ∀ exchange ∈ calls, isQuiet exchange.call = true) :
    calls.countP (startsUnder name) = 0 := by
  refine List.countP_eq_zero.2 fun exchange hmem hstarts => ?_
  have hcall := hquiet exchange hmem
  obtain ⟨c, answer⟩ := exchange
  cases c with
  | start => cases hcall
  | _ => cases hstarts

end Answered

/-! ## Replaces that go through -/

section Ends

variable {settings : Settings} {role : Role} {refs : ImageRefs} {slot slot' : Slot}
  {calls : List Exchange} {result : Replaced} {m m' : Memory}

theorem Removes.countP_starts {container : Option Handle} (h : Removes container calls)
    (name : String) : calls.countP (startsUnder name) = 0 := by
  cases h <;> rfl

/-- Where nothing fails a replace goes through, and starts one container under the name of its
role. -/
theorem Ends.willing (h : Ends settings role refs slot calls result slot')
    (hanswered : Answered m calls m') (hwilling : m.failing = []) :
    ∃ handle, result = .ok (.replaced (refs.of role) handle.id) ∧
      slot' = ⟨some (refs.of role), some handle, .running (refs.of role)⟩ ∧
      ∀ name, calls.countP (startsUnder name) = if name = role.containerName then 1 else 0 := by
  have hok := hanswered.succeeds hwilling
  cases h with
  | exitUnconfirmed old signalled cause =>
    obtain ⟨value, hvalue⟩ := hok ⟨.awaitExit old.id, .error cause⟩ (by simp) rfl
    cases hvalue
  | pruneFailed old signalled cause =>
    obtain ⟨value, hvalue⟩ := hok ⟨.prune, .error cause⟩ (by simp) rfl
    cases hvalue
  | removalUnconfirmed old signalled cause =>
    obtain ⟨value, hvalue⟩ := hok ⟨.awaitPrune old.id, .error cause⟩ (by simp) rfl
    cases hvalue
  | imageMissing removal cause =>
    obtain ⟨value, hvalue⟩ := hok ⟨.ensureImage role.name (settings.usedImage (refs.of role)),
      .error cause⟩ (by simp) rfl
    cases hvalue
  | startFailed removal cause =>
    obtain ⟨value, hvalue⟩ := hok
      ⟨.start (role.descriptor settings (settings.usedImage (refs.of role)) refs), .error cause⟩
      (by simp) rfl
    cases hvalue
  | startUnconfirmed removal handle cause =>
    obtain ⟨value, hvalue⟩ := hok ⟨.awaitStart handle.id, .error cause⟩ (by simp) rfl
    cases hvalue
  | replaced removal handle hremoval =>
    refine ⟨handle, rfl, rfl, fun name => ?_⟩
    rw [List.countP_append, hremoval.countP_starts, Nat.zero_add]
    by_cases hname : name = role.containerName
    · simp [startsUnder, Container.Call.operation, Container.Call.target, hname]
    · simp [startsUnder, Container.Call.operation, Container.Call.target, hname, Ne.symm hname]

end Ends

/-! ## Containers in their slots -/

/-- Nothing fails, every container is in the slot of its role and runs, and a role that was given an
image has it. -/
structure Shipshape (roster : Roster) (m : Memory) : Prop where
  willing : m.failing = []
  tracked : Tracked roster m
  known : ∀ id, (m.containers.get? id).isSome = true →
    ∃ role handle, (roster.slot role).container = some handle ∧ handle.id = id
  runs : ∀ role handle, (roster.slot role).container = some handle →
    Runs role.containerName handle.id m
  filled : ∀ role image, (roster.slot role).image = some image →
    ∃ handle, roster.slot role = ⟨some image, some handle, .running image⟩

section Shipshape

variable {settings : Settings} {roster roster' : Roster} {m m' : Memory} {calls : List Exchange}

/-- Calls that are quiet leave everything in its place. -/
theorem Shipshape.quiet (h : Shipshape roster m) (hanswered : Answered m calls m')
    (hquiet : ∀ exchange ∈ calls, isQuiet exchange.call = true) : Shipshape roster m' := by
  obtain ⟨hcontainers, hstarted⟩ := hanswered.quiet hquiet
  refine ⟨hanswered.failing.trans h.willing, (h.tracked.same hcontainers hstarted).1, ?_, ?_,
    h.filled⟩
  · rw [hcontainers]
    exact h.known
  · unfold Runs
    rw [hcontainers]
    exact h.runs

/-- Everything is in its place once a role has a new container that is alone under its name. -/
theorem Shipshape.begun {role : Role} {image : String} {started : Handle}
    (h : Shipshape roster m) (hwilling : m'.failing = [])
    (htracked : Tracked (roster.put role ⟨some image, some started, .running image⟩) m')
    (hown : ∀ id, (Bears role.containerName id m' ↔ id = started.id) ∧
      (Runs role.containerName id m' ↔ id = started.id))
    (hothers : ∀ name ≠ role.containerName, ∀ id, (Bears name id m' → Bears name id m) ∧
      (Runs name id m' ↔ Runs name id m ∧
        ((roster.slot role).container.map (·.id) = some id → .terminate ∈ m.failing))) :
    Shipshape (roster.put role ⟨some image, some started, .running image⟩) m' where
  willing := hwilling
  tracked := htracked
  known id hid := by
    obtain ⟨c, hc⟩ := Option.isSome_iff_exists.1 hid
    have hbears : Bears c.info.name id m' := ⟨c, hc, rfl⟩
    by_cases hname : c.info.name = role.containerName
    · rw [hname] at hbears
      exact ⟨role, started, by rw [Roster.slot_put_self], ((hown id).1.1 hbears).symm⟩
    · -- A container of another name was there before, in the slot of the other role.
      have hbefore : Bears c.info.name id m := (hothers _ hname id).1 hbears
      obtain ⟨c', hc', hname'⟩ := hbefore
      obtain ⟨other, handle, hhandle, rfl⟩ := h.known id (by rw [hc']; rfl)
      have hother : c.info.name = other.containerName :=
        (h.tracked.owned other handle hhandle).name_eq_of_bears ⟨c', hc', hname'⟩
      have hne : other ≠ role := by
        rintro rfl
        exact hname hother
      exact ⟨other, handle, by rw [Roster.slot_put_ne _ _ hne]; exact hhandle, rfl⟩
  runs other handle hhandle := by
    by_cases hrole : other = role
    · subst hrole
      rw [Roster.slot_put_self] at hhandle
      obtain rfl := Option.some.inj hhandle
      exact (hown _).2.2 rfl
    · rw [Roster.slot_put_ne _ _ hrole] at hhandle
      have hruns := h.runs other handle hhandle
      have hname : other.containerName ≠ role.containerName :=
        fun heq => hrole (Role.containerName_injective heq)
      -- The signal that the old container got reached no other one.
      refine (hothers _ hname _).2.2 ⟨hruns, fun hold => ?_⟩
      obtain ⟨old, hold, hsame⟩ := Option.map_eq_some_iff.1 hold
      exact absurd hsame.symm (h.tracked.ne_of_bears hold (Ne.symm hrole) hruns.bears)
  filled other image' himage := by
    by_cases hrole : other = role
    · subst hrole
      rw [Roster.slot_put_self] at himage ⊢
      obtain rfl := Option.some.inj himage
      exact ⟨started, rfl⟩
    · rw [Roster.slot_put_ne _ _ hrole] at himage ⊢
      exact h.filled other image' himage

/-- A turn goes through, keeps everything in its place, and starts a container if the role is given
an image. -/
theorem Shipshape.turn {turn : Turn} {slot : Slot} (h : Shipshape roster m)
    (hturn : turn.Changes settings (roster.slot turn.role) calls slot)
    (hanswered : Answered m calls m') :
    Shipshape (roster.put turn.role slot) m' ∧ (∃ outcome, turn.result = .ok outcome) ∧
      ∀ role, calls.countP (startsUnder role.containerName) =
        if turn.role = role && turn.attempted then 1 else 0 := by
  have htracked := hturn.tracked hanswered h.tracked
  have hwilling := hanswered.failing.trans h.willing
  cases hturn with
  | unchanged role refs himage =>
    obtain rfl : m' = m := hanswered
    rw [Roster.put_slot]
    refine ⟨h, ⟨_, rfl⟩, fun other => ?_⟩
    simp [Turn.attempted]
  | attempted role refs forced hneeded hends =>
    obtain ⟨handle, rfl, rfl, hcount⟩ := hends.willing hanswered h.willing
    cases hends.aftermath hanswered h.tracked.counted with
    | kept hold hsame hexit =>
      rw [h.willing] at hexit
      cases hexit
    | lost hnone => cases hnone
    | begun started hsome howned hown hothers =>
      obtain rfl : started = handle := (Option.some.inj hsome).symm
      refine ⟨h.begun hwilling htracked hown hothers, ⟨_, rfl⟩, fun other => ?_⟩
      rw [hcount]
      by_cases hrole : role = other
      · subst hrole
        simp [Turn.attempted]
      · have hname : other.containerName ≠ role.containerName :=
          fun heq => hrole (Role.containerName_injective heq).symm
        simp [hname, hrole]

/-- Turns go through, and start a container for each image that is given. -/
theorem Shipshape.taken {turns : List Turn} (h : Shipshape roster m)
    (htaken : Taken settings turns roster calls roster') (hanswered : Answered m calls m') :
    Shipshape roster' m' ∧ (∀ turn ∈ turns, ∃ outcome, turn.result = .ok outcome) ∧
      ∀ role, calls.countP (startsUnder role.containerName) =
        (turns.filter fun turn => turn.role = role && turn.attempted).length := by
  induction htaken generalizing m with
  | nil =>
    obtain rfl : m' = m := hanswered
    exact ⟨h, List.forall_mem_nil _, fun role => rfl⟩
  | cons hturn _ ih =>
    obtain ⟨m₁, hfirst, hrest⟩ := answered_append.1 hanswered
    obtain ⟨hship, hok, hcount⟩ := h.turn hturn hfirst
    obtain ⟨hships, hoks, hcounts⟩ := ih hship hrest
    refine ⟨hships, List.forall_mem_cons.2 ⟨hok, hoks⟩, fun role => ?_⟩
    rw [List.countP_append, hcount, hcounts, List.filter_cons]
    split
    · rw [List.length_cons, Nat.add_comm]
    · rw [Nat.zero_add]

end Shipshape

/-! ## Looking after containers that run -/

section Looking

variable {roster : Roster} {m m' : Memory} {calls : List Exchange}

/-- A pass over a container that runs only looks at it. -/
theorem Revival.quiet {container : Option Handle} {count : Nat} {name : String}
    (h : Revival container count calls) (hanswered : Answered m calls m')
    (hwilling : m.failing = [])
    (hruns : ∀ handle, container = some handle → Runs name handle.id m) :
    ∀ exchange ∈ calls, isQuiet exchange.call = true := by
  cases h with
  | nothing => exact List.forall_mem_nil _
  | unseen handle cause => simp [isQuiet]
  | alive handle info hinfo => simp [isQuiet]
  | restarted handle info answer hexited =>
    -- The container was not seen as exited.
    obtain ⟨c, hc, -, hstate⟩ := hruns handle rfl
    have hanswer := hanswered.1
    have hinspect : .inspect ∉ m.failing := by simp [hwilling]
    simp only [Memory.answer_inspect hinspect, hc] at hanswer
    rw [Except.ok.inj hanswer, hstate] at hexited
    cases hexited

theorem Pass.quiet {includeUpdater : Bool} {count : Nat}
    (h : Pass roster includeUpdater count calls) (hship : Shipshape roster m)
    (hanswered : Answered m calls m') : ∀ exchange ∈ calls, isQuiet exchange.call = true := by
  cases h with
  | supervisor hrevival =>
    exact hrevival.quiet hanswered hship.willing (hship.runs .supervisor)
  | both hrevival hrevival' =>
    obtain ⟨m₁, hfirst, hsecond⟩ := answered_append.1 hanswered
    have hquiet := hrevival.quiet hfirst hship.willing (hship.runs .supervisor)
    have hship' := hship.quiet hfirst hquiet
    exact List.forall_mem_append.2
      ⟨hquiet, hrevival'.quiet hsecond hship'.willing (hship'.runs .updater)⟩

/-- Who asks for the status of a role whose container runs is told so. -/
theorem run_statusLocked {w : World Memory} {role : Role} {handle : Handle}
    (hhandle : (w.roster.slot role).container = some handle)
    (hruns : Runs role.containerName handle.id w.backend) (hwilling : w.backend.failing = []) :
    (statusLocked role).run w =
      ((w.roster.slot role).status role (some .running), (w.perform (.inspect handle.id)).2) := by
  obtain ⟨c, hc, -, hstate⟩ := hruns
  have hinspect : .inspect ∉ w.backend.failing := by simp [hwilling]
  have hanswer : (w.perform (.inspect handle.id)).1 = .ok c.info := by
    show (w.backend.perform (.inspect handle.id)).answer = _
    rw [Memory.answer_inspect hinspect, hc]
  have hslot : Script.run (S := signature) World.answer (Transaction.slot role) w =
      (w.roster.slot role, w) := rfl
  have hcalled :
      Script.run (S := signature) World.answer (Transaction.call (.inspect handle.id)) w =
        w.perform (.inspect handle.id) := rfl
  unfold statusLocked Transaction.run
  rw [Script.run_bind, hslot]
  simp only [hhandle]
  rw [Script.run_bind, hcalled, hanswer, ← hstate]
  rfl

/-- Where all containers run, the status of both roles tells so. -/
theorem Shipshape.statuses {w : World Memory} (h : Shipshape w.roster w.backend)
    (hfilled : ∀ role, ∃ handle, (w.roster.slot role).container = some handle) :
    (statusesLocked.run w).1 =
      Role.all.map fun role => (w.roster.slot role).status role (some .running) := by
  obtain ⟨updater, hupdater⟩ := hfilled .updater
  obtain ⟨supervisor, hsupervisor⟩ := hfilled .supervisor
  let w' := (w.perform (.inspect updater.id)).2
  have hanswered : Answered w.backend
      [⟨.inspect updater.id, (w.backend.perform (.inspect updater.id)).answer⟩] w'.backend :=
    ⟨rfl, rfl⟩
  have hship : Shipshape w'.roster w'.backend := h.quiet hanswered (by simp [isQuiet])
  have hroster : w'.roster = w.roster := rfl
  have hfirst := run_statusLocked hupdater (h.runs .updater updater hupdater) h.willing
  have hsecond : (statusLocked .supervisor).run w' = _ :=
    run_statusLocked hsupervisor (hship.runs .supervisor supervisor hsupervisor) hship.willing
  have hstatuses : statusesLocked.run w =
      ([((statusLocked .updater).run w).1,
        ((statusLocked .supervisor).run ((statusLocked .updater).run w).2).1],
        ((statusLocked .supervisor).run ((statusLocked .updater).run w).2).2) := by
    unfold statusesLocked Transaction.run
    simp only [Role.all, List.mapM_cons, List.mapM_nil, Script.run_bind]
    rfl
  rw [hstatuses, hfirst]
  show [_, ((statusLocked .supervisor).run w').1] = _
  rw [hsecond]
  rfl

end Looking

/-! ## What the roles were given -/

theorem changes_append (recorded : Option String) (targets targets' : List String) :
    changes recorded (targets ++ targets') =
      changes recorded targets + changes (targets.getLast?.or recorded) targets' := by
  induction targets generalizing recorded with
  | nil => simp [changes]
  | cons target targets ih =>
    rw [List.cons_append, changes, changes, ih, List.getLast?_cons, Nat.add_assoc]
    cases targets.getLast? <;> rfl

/-- Everything is in its place, each role runs the last image it was to be given, and since a memory
was as `before` it was started as often as that image changed. -/
structure Supplied (before : Memory) (given : Role → List String) (roster : Roster) (m : Memory) :
    Prop where
  shipshape : Shipshape roster m
  recorded : ∀ role, (roster.slot role).image = (given role).getLast?
  started : ∀ role, (m.targets .start).count role.containerName =
    (before.targets .start).count role.containerName + changes none (given role)

section Supplied

variable {settings : Settings} {before m m' : Memory} {given : Role → List String}
  {roster roster' : Roster} {calls : List Exchange}

theorem Supplied.quiet (h : Supplied before given roster m) (hanswered : Answered m calls m')
    (hquiet : ∀ exchange ∈ calls, isQuiet exchange.call = true) :
    Supplied before given roster m' where
  shipshape := h.shipshape.quiet hanswered hquiet
  recorded := h.recorded
  started role := by
    rw [hanswered.count_starts, countP_quiet _ hquiet, Nat.add_zero, h.started]

/-- A role that was given images runs the last one. -/
theorem Supplied.slot {role : Role} {image : String} (h : Supplied before given roster m)
    (hlast : (given role).getLast? = some image) :
    ∃ handle, roster.slot role = ⟨some image, some handle, .running image⟩ ∧
      Runs role.containerName handle.id m := by
  obtain ⟨handle, hslot⟩ := h.shipshape.filled role image ((h.recorded role).trans hlast)
  exact ⟨handle, hslot, h.shipshape.runs role handle (by rw [hslot])⟩

/-- A replace of a role that has no image yet goes through. -/
theorem Supplied.replaced {role : Role} {refs : ImageRefs} {result : Replaced} {slot : Slot}
    (h : Supplied before given roster m) (hnone : given role = [])
    (hends : Ends settings role refs (roster.slot role) calls result slot)
    (hanswered : Answered m calls m') :
    (∃ outcome, result = .ok outcome) ∧
      Supplied before (fun other => if other = role then [refs.of role] else given other)
        (roster.put role slot) m' := by
  let turn : Turn := ⟨role, refs, true, result⟩
  have hturn : turn.Changes settings (roster.slot turn.role) calls slot :=
    .attempted role refs true (.inl rfl) hends
  have hattempted : turn.attempted = true := hends.attempted
  have hown : turn.role = role := rfl
  obtain ⟨hship, hok, hcount⟩ := h.shipshape.turn hturn hanswered
  obtain ⟨handle, rfl, rfl, -⟩ := hends.willing hanswered h.shipshape.willing
  refine ⟨hok, hship, fun other => ?_, fun other => ?_⟩
  · by_cases hrole : other = role
    · subst hrole
      rw [Roster.slot_put_self, if_pos rfl]
      rfl
    · rw [Roster.slot_put_ne _ _ hrole, if_neg hrole]
      exact h.recorded other
  · rw [hanswered.count_starts, hcount, h.started, hattempted]
    by_cases hrole : other = role
    · subst hrole
      simp [hnone, hown, changes]
    · simp [hown, hrole, Ne.symm hrole]

/-- Turns at the items of a stream give each role the images of the items. -/
theorem Supplied.visited {items : List ImageRefs} {turns : List Turn}
    (h : Supplied before given roster m) (hvisits : Visits (points items) turns)
    (htaken : Taken settings turns roster calls roster') (hanswered : Answered m calls m') :
    (∀ turn ∈ turns, ∃ outcome, turn.result = .ok outcome) ∧
      Supplied before (fun role => given role ++ items.map (·.of role)) roster' m' := by
  obtain ⟨hship, hok, hcount⟩ := h.shipshape.taken htaken hanswered
  refine ⟨hok, hship, fun role => ?_, fun role => ?_⟩
  · rw [(hvisits.count_attempted htaken role hok).2, h.recorded, List.getLast?_append]
  · rw [hanswered.count_starts, hcount, (hvisits.count_attempted htaken role hok).1, h.started,
      changes_append, h.recorded, Option.or_none, Nat.add_assoc]

end Supplied

end Crew
end Caretaker
