import Caretaker.Crew.World
import Caretaker.Proofs.Concealed
import Caretaker.Proofs.Replace

/-!
# Operations do not depend on the passphrase

Operations on the crew hand descriptors and handles on and look at nothing in them but ids and
names.  So the passphrase makes no difference to what they ask for and what they end with, but for
the descriptor that is started and the slot that then holds it.

Main definitions:

- `Request.Matches`: which requests of operations correspond.
- `World.Alike`: worlds that show the same.

Main statements:

- `World.Alike.attempt`: worlds that show the same answer what corresponds, and go on showing the
  same.
- `alike_replace`, `alike_apply`, `alike_keepAlive`, `alike_stopAll`, `alike_roleStatuses`: what
  operations do is alike whatever the passphrase is.
-/

namespace Caretaker.Crew

open Container (Backend Blind)
open Script Crew.Transaction

/-- Which requests of operations correspond, with their answers. -/
inductive Request.Matches : (r r' : Request) → (r.Answer → r'.Answer → Prop) → Prop where
  | lock (access : Access) : Matches (.lock access) (.lock access) Eq
  | tryLock : Matches .tryLock .tryLock Eq
  | unlock : Matches .unlock .unlock Eq
  | call {c c' : Container.Call} {told : c.Answer → c'.Answer → Prop} (h : c.Matches c' told) :
      Matches (.call c) (.call c') told
  | log (event : Event) : Matches (.log event) (.log event) Eq
  | slot (role : Role) :
      Matches (.slot role) (.slot role) fun slot slot' => slot.concealed = slot'.concealed
  | setSlot (role : Role) {slot slot' : Slot} (h : slot.concealed = slot'.concealed) :
      Matches (.setSlot role slot) (.setSlot role slot') Eq
  | publish (role : Role) : Matches (.publish role) (.publish role) Eq
  | lastKnown :
      Matches .lastKnown .lastKnown fun roster roster' => roster.concealed = roster'.concealed

/-- Whether transactions are alike. -/
abbrev Transaction.Alike {α α' : Type} (post : α → α' → Prop) (t : Transaction α)
    (t' : Transaction α') : Prop :=
  Script.Alike (S := signature) Request.Matches post t t'

theorem Transaction.alike_ask {r r' : Request} {told : r.Answer → r'.Answer → Prop}
    (h : r.Matches r' told) : (Transaction.ask r).Alike told (Transaction.ask r') :=
  .ask h fun _ _ => .done

/-! ## Worlds -/

/-- Whether two worlds show the same. -/
structure World.Alike {ρ : Type} [Backend ρ] [Blind ρ] (w w' : World ρ) : Prop where
  backend : Blind.alike w.backend w'.backend
  roster : w.roster.concealed = w'.roster.concealed
  lastKnown : w.lastKnown.concealed = w'.lastKnown.concealed
  lock : w.lock = w'.lock
  gated : w.gated = w'.gated
  events : w.events = w'.events

section Worlds

variable {ρ : Type} [Backend ρ] [Blind ρ] {w w' : World ρ}

theorem World.Alike.slot (h : w.Alike w') (role : Role) :
    (w.roster.slot role).concealed = (w'.roster.slot role).concealed := by
  rw [← Roster.slot_concealed, h.roster, Roster.slot_concealed]

/-- Requests that correspond have to wait together, or are given answers that correspond. -/
theorem World.Alike.attempt (h : w.Alike w') (who : Nat) {r r' : Request}
    {told : r.Answer → r'.Answer → Prop} (hr : r.Matches r' told) :
    Option.Rel told (w.attempt who r).1 (w'.attempt who r').1 ∧
      (w.attempt who r).2.Alike (w'.attempt who r').2 := by
  cases hr with
  | lock access =>
    simp only [World.attempt, h.lock]
    refine ⟨?_, { h with lock := rfl }⟩
    split
    · exact .some rfl
    · exact .none
  | tryLock =>
    simp only [World.attempt, h.lock]
    exact ⟨.some rfl, { h with lock := rfl }⟩
  | unlock =>
    simp only [World.attempt, h.lock]
    exact ⟨.some rfl, { h with lock := rfl }⟩
  | @call c c' _ hc =>
    have hreply := Blind.perform hc h.backend
    -- calls are held back by kind, and both are of one kind
    have hgated : c'.operation ∈ w'.gated ↔ c.operation ∈ w.gated := by
      rw [← Container.Call.operation_concealed c, hc.concealed,
        Container.Call.operation_concealed, h.gated]
    by_cases hwaits : c.operation ∈ w.gated
    · simp only [World.attempt, if_pos hwaits, if_pos (hgated.2 hwaits)]
      exact ⟨.none, h⟩
    · simp only [World.attempt, if_neg hwaits, if_neg (mt hgated.1 hwaits)]
      refine ⟨.some hreply.answer, { h with backend := hreply.state, events := ?_ }⟩
      show _ ++ w.events = _ ++ w'.events
      rw [hreply.events, h.events]
  | log event => exact ⟨.some rfl, { h with events := congrArg (event :: ·) h.events }⟩
  | slot role => exact ⟨.some (h.slot role), h⟩
  | setSlot role hslot =>
    refine ⟨.some rfl, { h with roster := ?_ }⟩
    show (w.roster.put role _).concealed = (w'.roster.put role _).concealed
    rw [Roster.put_concealed, Roster.put_concealed, h.roster, hslot]
  | publish role =>
    refine ⟨.some rfl, { h with lastKnown := ?_ }⟩
    show (w.lastKnown.put role _).concealed = (w'.lastKnown.put role _).concealed
    rw [Roster.put_concealed, Roster.put_concealed, h.lastKnown, h.slot role]
  | lastKnown => exact ⟨.some h.lastKnown, h⟩

end Worlds

/-! ## Requests in operations -/

section Requests

variable {slot slot' : Slot}

theorem alike_log (level : Level) (message : String) (fields : List (String × EventValue)) :
    (Transaction.log level message fields).Alike Eq (Transaction.log level message fields) :=
  Transaction.alike_ask (.log _)

/-- A call that is no start makes no difference. -/
theorem alike_call (c : Container.Call) (h : c.operation ≠ .start) :
    (Transaction.call c).Alike Eq (Transaction.call c) :=
  Transaction.alike_ask (.call (.same c h))

theorem alike_slot (role : Role) :
    (Transaction.slot role).Alike (fun slot slot' => slot.concealed = slot'.concealed)
      (Transaction.slot role) :=
  Transaction.alike_ask (.slot role)

theorem alike_setSlot (role : Role) (h : slot.concealed = slot'.concealed) :
    (Transaction.setSlot role slot).Alike Eq (Transaction.setSlot role slot') :=
  have hmatches : Request.Matches (.setSlot role slot) (.setSlot role slot') Eq := .setSlot role h
  Transaction.alike_ask hmatches

theorem alike_publish (role : Role) :
    (Transaction.publish role).Alike Eq (Transaction.publish role) :=
  Transaction.alike_ask (.publish role)

theorem alike_locked {α : Type} {post : α → α → Prop} (access : Access)
    {body body' : Transaction α} (h : body.Alike post body') :
    (locked access body).Alike post (locked access body') := by
  refine .bind_eq (Transaction.alike_ask (.lock access)) fun _ => ?_
  refine .bind h fun _ _ hvalue => ?_
  exact .bind_eq (Transaction.alike_ask .unlock) fun _ => .done hvalue

end Requests

/-! ## Steps of a replace -/

namespace Replace

variable {settings : Settings} {role : Role} {refs : ImageRefs} {slot slot' : Slot}

theorem alike_enter (phase : Phase) (h : slot.concealed = slot'.concealed) :
    (enter role slot phase).Alike (fun slot slot' => slot.concealed = slot'.concealed)
      (enter role slot' phase) := by
  have hphase : { slot with phase }.concealed = { slot' with phase }.concealed :=
    congrArg (fun slot : Slot => { slot with phase }) h
  refine .bind_eq (alike_log _ _ _) fun _ => ?_
  refine .bind_eq (alike_setSlot role hphase) fun _ => ?_
  exact .bind_eq (alike_publish role) fun _ => .done hphase

theorem alike_lift {α α' : Type} {post : α → α' → Prop} {t : Transaction α}
    {t' : Transaction α'} (h : t.Alike post t') :
    Transaction.Alike (SameUpTo post)
      (liftM t : ExceptT ReplaceError (Script signature) α).run
      (liftM t' : ExceptT ReplaceError (Script signature) α').run :=
  Alike.map h fun _ _ hvalue => .ok hvalue

theorem alike_callAt (fault : Container.Fault → ReplaceError) {c c' : Container.Call}
    {told : c.Value → c'.Value → Prop} (h : c.Matches c' (SameUpTo told)) :
    Transaction.Alike (SameUpTo told) (callAt fault c).run (callAt fault c').run := by
  refine .bind (Transaction.alike_ask (.call h)) fun answer answer' hanswer => ?_
  cases hanswer with
  | ok hvalue => exact .done (.ok hvalue)
  | error cause => exact .done (.error _)

/-- Steps that are no start. -/
theorem alike_callAt_self (fault : Container.Fault → ReplaceError) (c : Container.Call)
    (h : c.operation ≠ .start) :
    Transaction.Alike (SameUpTo Eq) (callAt fault c).run (callAt fault c).run := by
  refine .bind_eq (alike_call c h) fun answer => ?_
  cases answer with
  | ok value => exact .done (.ok rfl)
  | error cause => exact .done (.error _)

theorem alike_signal {old old' : Handle} (h : old.concealed = old'.concealed) :
    (signal role old).Alike Eq (signal role old') := by
  unfold signal
  rw [Handle.id_of_concealed h, Handle.name_of_concealed h]
  refine .bind_eq (alike_call _ nofun) fun signalled => ?_
  cases signalled with
  | ok => exact alike_log _ _ _
  | error cause => exact alike_log _ _ _

theorem alike_remove (image : String) {old old' : Handle} (hslot : slot.concealed = slot'.concealed)
    (h : old.concealed = old'.concealed) :
    Transaction.Alike (SameUpTo fun slot slot' => slot.concealed = slot'.concealed)
      (remove role image slot old).run (remove role image slot' old').run := by
  have hempty : { slot with container := none }.concealed =
      { slot' with container := none }.concealed :=
    congrArg (fun slot : Slot => { slot with container := none }) hslot
  unfold remove
  rw [Handle.id_of_concealed h]
  refine Alike.run_bind_eq (alike_callAt_self _ (.awaitExit _) nofun) (fun _ => ?_) .error
  refine Alike.run_bind (alike_lift (alike_enter .stopped hempty)) (fun _ _ hslot => ?_) .error
  refine Alike.run_bind (alike_lift (alike_enter .pruning hslot)) (fun _ _ hslot => ?_) .error
  refine Alike.run_bind_eq (alike_callAt_self _ .prune nofun) (fun _ => ?_) .error
  refine Alike.run_bind_eq (alike_callAt_self _ (.awaitPrune _) nofun) (fun _ => ?_) .error
  exact .done (.ok hslot)

theorem alike_teardown (image : String) {old old' : Handle}
    (hslot : slot.concealed = slot'.concealed) (h : old.concealed = old'.concealed) :
    Transaction.Alike (SameUpTo fun slot slot' => slot.concealed = slot'.concealed)
      (teardown role image slot old).run (teardown role image slot' old').run := by
  rw [teardown_eq, teardown_eq]
  refine Alike.run_bind (alike_lift (alike_enter .stopping hslot)) (fun _ _ hslot => ?_) .error
  refine Alike.run_bind_eq (alike_lift (alike_signal h)) (fun _ => ?_) .error
  exact alike_remove image hslot h

theorem alike_ensureImage (image : String) :
    (ensureImage settings role image).Alike Eq (ensureImage settings role image) := by
  have hused : ∀ used, (ensureUsed role used).Alike Eq (ensureUsed role used) := by
    intro used
    refine .bind_eq (alike_call (.ensureImage role.name used) nofun) fun ensured => ?_
    cases ensured with
    | ok => exact .done rfl
    | error cause => exact .bind_eq (alike_log _ _ _) fun _ => .done rfl
  rw [ensureImage_eq]
  cases resolve settings image with
  | ok used => exact hused used
  | error fault => exact .bind_eq (alike_log _ _ _) fun _ => hused image

/-- The passphrase is in the descriptor that is started, and goes into the slot with its handle. -/
theorem alike_launch (passphrase used : String) (hslot : slot.concealed = slot'.concealed) :
    Transaction.Alike (SameUpTo Eq) (launch settings role refs slot used).run
      (launch { settings with passphrase } role refs slot' used).run := by
  unfold launch
  refine Alike.run_bind (alike_lift (alike_enter .starting hslot)) (fun slot slot' hslot => ?_)
    .error
  refine Alike.run_bind
    (alike_callAt _ (.start (Role.descriptor_concealed role settings passphrase used refs).symm))
    (fun handle handle' hhandle => ?_) .error
  have hstarted : { slot with container := some handle }.concealed =
      { slot' with container := some handle' }.concealed := by
    show { slot.concealed with container := some handle.concealed } =
      { slot'.concealed with container := some handle'.concealed }
    rw [hslot, hhandle]
  have hrunning : Slot.concealed
        { slot with container := some handle, image := some (refs.of role),
                    phase := .running (refs.of role) } =
      Slot.concealed
        { slot' with container := some handle', image := some (refs.of role),
                     phase := .running (refs.of role) } :=
    congrArg (fun slot : Slot =>
      { slot with image := some (refs.of role), phase := .running (refs.of role) }) hstarted
  refine Alike.run_bind_eq (alike_lift (alike_setSlot role hstarted)) (fun _ => ?_) .error
  rw [Handle.id_of_concealed hhandle]
  refine Alike.run_bind_eq (alike_callAt_self _ (.awaitStart _) nofun) (fun _ => ?_) .error
  refine Alike.run_bind_eq (alike_lift (alike_log _ _ _)) (fun _ => ?_) .error
  refine Alike.run_bind_eq (alike_lift (alike_setSlot role hrunning)) (fun _ => ?_) .error
  exact .done (.ok rfl)

theorem alike_steps (passphrase : String) (hslot : slot.concealed = slot'.concealed) :
    Transaction.Alike (SameUpTo Eq) (steps settings role refs slot).run
      (steps { settings with passphrase } role refs slot').run := by
  have hfill : ∀ slot slot' : Slot, slot.concealed = slot'.concealed →
      Transaction.Alike (SameUpTo Eq) (fill settings role refs slot).run
        (fill { settings with passphrase } role refs slot').run := by
    intro slot slot' hslot
    refine Alike.run_bind_eq (?_ : Transaction.Alike (SameUpTo Eq) _ _) (fun used => ?_) .error
    · refine .bind_eq (alike_ensureImage _) fun ensured => ?_
      cases ensured with
      | ok used => exact .done (.ok rfl)
      | error cause => exact .done (.error _)
    · refine Alike.run_bind (alike_lift (alike_enter .imageEnsured hslot)) (fun _ _ hslot => ?_)
        .error
      exact alike_launch passphrase used hslot
  rw [steps_eq, steps_eq]
  rcases Slot.cases_of_concealed hslot with
    ⟨hnone, hnone'⟩ | ⟨old, old', hold, hold', hhandle⟩
  · rw [hnone, hnone']
    exact hfill slot slot' hslot
  · rw [hold, hold']
    exact Alike.run_bind (alike_teardown _ hslot hhandle) hfill .error

end Replace

/-! ## Operations -/

section Operations

variable {settings : Settings} {role : Role} {refs : ImageRefs}

theorem alike_replaceLocked (passphrase : String) :
    (replaceLocked settings role refs).Alike Eq
      (replaceLocked { settings with passphrase } role refs) := by
  refine .bind (alike_slot role) fun slot slot' hslot => ?_
  rw [Slot.image_of_concealed hslot]
  refine .bind_eq (alike_log _ _ _) fun _ => ?_
  refine .bind (Replace.alike_steps passphrase hslot) fun result _ hsame => ?_
  cases hsame.eq
  cases result with
  | ok outcome => exact .bind_eq (alike_publish role) fun _ => .done rfl
  | error e =>
    -- the slot is read again, since the steps that were made have set it
    refine .bind (alike_slot role) fun slot slot' hslot => ?_
    have hfailed : { slot with phase := .failed e.step }.concealed =
        { slot' with phase := .failed e.step }.concealed :=
      congrArg (fun slot : Slot => { slot with phase := .failed e.step }) hslot
    refine .bind_eq (alike_setSlot role hfailed) fun _ => ?_
    exact .bind_eq (alike_publish role) fun _ => .done rfl

theorem alike_compareLocked (passphrase : String) :
    (compareLocked settings role refs).Alike Eq
      (compareLocked { settings with passphrase } role refs) := by
  refine .bind (alike_slot role) fun slot slot' hslot => ?_
  rw [Slot.image_of_concealed hslot]
  split
  · exact .bind_eq (alike_log _ _ _) fun _ => .done rfl
  · exact alike_replaceLocked passphrase

theorem alike_applyLocked (passphrase : String) (roles : List Role) :
    (applyLocked settings refs roles).Alike Eq
      (applyLocked { settings with passphrase } refs roles) := by
  induction roles with
  | nil => exact .done rfl
  | cons role roles ih =>
    refine .bind_eq (alike_compareLocked passphrase) fun result => ?_
    show Transaction.Alike Eq (if isFatal result then _ else _) (if isFatal result then _ else _)
    split
    · exact .done rfl
    · exact .bind_eq ih fun updates => .done rfl

theorem alike_reviveLocked (role : Role) :
    (reviveLocked role).Alike Eq (reviveLocked role) := by
  refine .bind (alike_slot role) fun slot slot' hslot => ?_
  rcases Slot.cases_of_concealed hslot with
    ⟨hnone, hnone'⟩ | ⟨handle, handle', hsome, hsome', hhandle⟩
  · rw [hnone, hnone']
    exact .done rfl
  · simp only [hsome, hsome']
    rw [Handle.id_of_concealed hhandle]
    refine .bind_eq (alike_call (.inspect _) nofun) fun answer => ?_
    cases answer with
    | error cause => exact .bind_eq (alike_log _ _ _) fun _ => .done rfl
    | ok info =>
      show Transaction.Alike Eq (if info.state = .exited then _ else _)
        (if info.state = .exited then _ else _)
      split
      · refine .bind_eq (alike_log _ _ _) fun _ => ?_
        refine .bind_eq (alike_call (.restart _) nofun) fun restarted => ?_
        cases restarted with
        | error cause => exact .bind_eq (alike_log _ _ _) fun _ => .done rfl
        | ok => exact .done rfl
      · exact .bind_eq (alike_log _ _ _) fun _ => .done rfl

theorem alike_stopLocked (role : Role) : (stopLocked role).Alike Eq (stopLocked role) := by
  refine .bind (alike_slot role) fun slot slot' hslot => ?_
  rcases Slot.cases_of_concealed hslot with
    ⟨hnone, hnone'⟩ | ⟨handle, handle', hsome, hsome', hhandle⟩
  · rw [hnone, hnone']
    exact .done rfl
  · simp only [hsome, hsome']
    rw [Handle.id_of_concealed hhandle]
    refine .bind_eq (alike_log _ _ _) fun _ => ?_
    refine .bind_eq (alike_call (.stop _) nofun) fun stopped => ?_
    cases stopped with
    | error cause => exact alike_log _ _ _
    | ok => exact .done rfl

theorem alike_statusLocked (role : Role) : (statusLocked role).Alike Eq (statusLocked role) := by
  refine .bind (alike_slot role) fun slot slot' hslot => ?_
  have hstatus := Slot.status_of_concealed hslot role
  rcases Slot.cases_of_concealed hslot with
    ⟨hnone, hnone'⟩ | ⟨handle, handle', hsome, hsome', hhandle⟩
  · rw [hnone, hnone']
    exact .done (hstatus none)
  · simp only [hsome, hsome']
    rw [Handle.id_of_concealed hhandle]
    refine .bind_eq (alike_call (.inspect _) nofun) fun answer => ?_
    cases answer with
    | ok info => exact .done (hstatus (some info.state))
    | error cause => exact .bind_eq (alike_log _ _ _) fun _ => .done (hstatus none)

/-- A replace is alike whatever the passphrase is. -/
theorem alike_replace (passphrase : String) :
    (replace settings role refs).Alike Eq (replace { settings with passphrase } role refs) :=
  alike_locked .exclusive (alike_replaceLocked passphrase)

/-- Applying images is alike whatever the passphrase is. -/
theorem alike_apply (passphrase : String) (roles : List Role) :
    (apply settings refs roles).Alike Eq (apply { settings with passphrase } refs roles) :=
  alike_locked .exclusive (alike_applyLocked passphrase roles)

/-- A keep-alive pass makes no difference between containers that show the same. -/
theorem alike_keepAlive (includeUpdater : Bool) :
    (keepAlive includeUpdater).Alike Eq (keepAlive includeUpdater) := by
  refine alike_locked .exclusive (.bind_eq (alike_reviveLocked .supervisor) fun count => ?_)
  cases includeUpdater with
  | false => exact .done rfl
  | true => exact .bind_eq (alike_reviveLocked .updater) fun count => .done rfl

theorem alike_stopAll : stopAll.Alike Eq stopAll :=
  alike_locked .shared (.bind_eq (alike_stopLocked .updater) fun _ => alike_stopLocked .supervisor)

theorem alike_statusesLocked : statusesLocked.Alike Eq statusesLocked := by
  simp only [statusesLocked, Role.all, List.mapM_cons, List.mapM_nil]
  refine .bind_eq (alike_statusLocked .updater) fun updater => ?_
  refine .bind_eq ?_ fun statuses => .done rfl
  exact .bind_eq (alike_statusLocked .supervisor) fun supervisor => .done rfl

/-- The status of the roles tells of containers what shows of them, asked or last known. -/
theorem alike_roleStatuses : roleStatuses.Alike Eq roleStatuses := by
  refine .bind_eq (Transaction.alike_ask .tryLock) fun held => ?_
  cases held with
  | true =>
    refine .bind_eq alike_statusesLocked fun statuses => ?_
    exact .bind_eq (Transaction.alike_ask .unlock) fun _ => .done rfl
  | false =>
    -- the lock is held, so the statuses are those of the roster last known
    refine .bind (Transaction.alike_ask .lastKnown) fun roster roster' hroster => .done ?_
    refine List.map_congr_left fun role _ => Slot.status_of_concealed ?_ role none
    rw [← Roster.slot_concealed, hroster, Roster.slot_concealed]

end Operations

end Caretaker.Crew
