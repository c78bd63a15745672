import Caretaker.Proofs.Usage
import Caretaker.Proofs.Work

/-!
# A service with one role

Without auto-update only the supervisor is ever launched.  The task that starts the service writes
the slot of the supervisor, and nobody else writes any slot; everybody else reads, and calls only to
tend the container that the slot holds.

The one who writes knows the slot exactly.  For those who read, the slot may change between any two
of their requests, but a container that it holds stays there (`Progress.Later`).  So the readers are
proved for a rule under which the state moves before each request (`Rule.under`).

Main statements:

- `Ensures.stable`: what is ensured under interference still is after some.
- `Crew.writes_replace`: the first replace of the supervisor writes no other slot, and makes the
  calls of a launch only.
- `Crew.reader_reviveLocked`, `Crew.reader_stopLocked`, `Crew.reader_roleStatuses`: keep-alive
  passes, stops and the status of the roles read, and tend the container of the supervisor only.
-/

namespace Caretaker

/-! ## Rules under interference -/

/-- The rule for a state that others may move before each request. -/
def Rule.under {S : Signature} {σ : Type} (rely : σ → σ → Prop) (rule : Rule S σ) : Rule S σ :=
  fun r s post => ∀ s', rely s s' → rule r s' post

theorem Rule.Monotone.under {S : Signature} {σ : Type} {rule : Rule S σ} (h : rule.Monotone)
    (rely : σ → σ → Prop) : (rule.under rely).Monotone :=
  fun r _ post post' himp hs s' hrely => h r s' post post' himp (hs s' hrely)

/-- What is ensured under interference is still ensured after some. -/
theorem Script.Ensures.stable {S : Signature} {σ α : Type} {rely : σ → σ → Prop}
    {rule : Rule S σ} {script : Script S α} {post : α → Prop} {s s' : σ}
    (htrans : ∀ {a b c}, rely a b → rely b c → rely a c)
    (h : script.Ensures (rule.under rely) (fun value _ => post value) s) (hrely : rely s s') :
    script.Ensures (rule.under rely) (fun value _ => post value) s' := by
  cases script with
  | done value => exact h
  | ask r next => exact fun s'' hrely' => h s'' (htrans hrely hrely')

namespace Crew

open Script Transaction

/-- How far the one launch is: the slot of the supervisor, and the calls of its replace, by kind. -/
structure Progress where
  slot : Slot := {}
  calls : List Container.Operation := []

/-- The calls of a replace of a role that has no container. -/
def firstLaunch : List Container.Operation := [.ensureImage, .start, .awaitStart]

namespace Progress

/-- Whether an id is that of the container of the supervisor. -/
def Holds (p : Progress) (id : String) : Prop :=
  ∃ handle, p.slot.container = some handle ∧ handle.id = id

/-- Whether a launch can have come this far from there: a container is kept. -/
def Later (p p' : Progress) : Prop :=
  p.slot.container = none ∨ p'.slot.container = p.slot.container

theorem Later.refl (p : Progress) : p.Later p := .inr rfl

theorem Later.trans {p p' p'' : Progress} (h : p.Later p') (h' : p'.Later p'') : p.Later p'' := by
  rcases h with hnone | hsame
  · exact .inl hnone
  · rcases h' with hnone | hsame'
    · exact .inl (hsame ▸ hnone)
    · exact .inr (hsame'.trans hsame)

theorem Later.holds {p p' : Progress} (h : p.Later p') {id : String} (hid : p.Holds id) :
    p'.Holds id := by
  obtain ⟨handle, hslot, hhandle⟩ := hid
  rcases h with hnone | hsame
  · rw [hslot] at hnone
    cases hnone
  · exact ⟨handle, hsame.trans hslot, hhandle⟩

/-- Whether a call may come next in a start. -/
def MayCall (p : Progress) : Container.Call → Prop
  | .list | .nuke => True
  | .ensureImage user _ => user = Role.supervisor.name ∧ p.calls = []
  | .start descriptor =>
    descriptor.name = Role.supervisor.containerName ∧ p.calls = [.ensureImage]
  | .awaitStart id => p.Holds id ∧ p.calls = [.ensureImage, .start]
  | _ => False

/-- A launch after one more call; only those of the replace count. -/
def called (c : Container.Call) (p : Progress) : Progress :=
  match c with
  | .list | .nuke => p
  | c => { p with calls := p.calls ++ [c.operation] }

/-- Whether a handle that a call gives is among those `born`, if the call starts the supervisor. -/
def Bears (born : Handle → Prop) : (c : Container.Call) → c.Answer → Prop
  | .start descriptor, .ok handle => descriptor.name = Role.supervisor.containerName → born handle
  | _, _ => True

/-- Whether the slot of the supervisor may be set so: a container is kept or is among those `born`,
and the recorded image is the given one, if there is one. -/
def MaySet (born : Handle → Prop) (image : String) (p : Progress) (slot : Slot) : Prop :=
  (slot.container = p.slot.container ∨
    p.slot.container = none ∧ ∃ handle, slot.container = some handle ∧ born handle) ∧
  (slot.image = none ∨ slot.image = some image)

/-- How a launch goes on that alone writes the slot of the supervisor. -/
def writer (born : Handle → Prop) (image : String) : Rule signature Progress
  | .call c, p, post =>
    p.MayCall c ∧ ∀ answer : c.Answer, Bears born c answer → post answer (p.called c)
  | .slot .supervisor, p, post => post p.slot p
  | .setSlot .supervisor slot, p, post => p.MaySet born image slot ∧ post () { p with slot }
  | .publish .supervisor, p, post => post () p
  | .log _, p, post => post () p
  | .lock _, p, post => post () p
  | .unlock, p, post => post () p
  | _, _, _ => False

/-- Whether a call tends the container of the supervisor. -/
def MayTend (p : Progress) : Container.Call → Prop
  | .inspect id | .restart id | .stop id => p.Holds id
  | _ => False

/-- How those go on who only read. -/
def reader : Rule signature Progress
  | .call c, p, post => p.MayTend c ∧ ∀ answer : c.Answer, post answer p
  | .slot .updater, p, post => post {} p
  | .slot .supervisor, p, post => post p.slot p
  | .lastKnown, p, post => ∀ roster : Roster, roster.updater = {} → post roster p
  | .log _, p, post => post () p
  | .lock _, p, post => post () p
  | .tryLock, p, post => ∀ held : Bool, post held p
  | .unlock, p, post => post () p
  | .setSlot _ _, _, _ => False
  | .publish _, _, _ => False

theorem writer_monotone (born : Handle → Prop) (image : String) :
    (writer born image).Monotone := by
  intro r p post post' himp h
  cases r with
  | call c => exact ⟨h.1, fun answer hanswer => himp _ _ (h.2 answer hanswer)⟩
  | slot role =>
    cases role with
    | updater => exact h.elim
    | supervisor => exact himp _ _ h
  | setSlot role slot =>
    cases role with
    | updater => exact h.elim
    | supervisor => exact ⟨h.1, himp _ _ h.2⟩
  | publish role =>
    cases role with
    | updater => exact h.elim
    | supervisor => exact himp _ _ h
  | tryLock => exact h.elim
  | lastKnown => exact h.elim
  | _ => exact himp _ _ h

theorem reader_monotone : reader.Monotone := by
  intro r p post post' himp h
  cases r with
  | call c => exact ⟨h.1, fun answer => himp _ _ (h.2 answer)⟩
  | slot role => cases role <;> exact himp _ _ h
  | lastKnown => exact fun roster hroster => himp _ _ (h roster hroster)
  | tryLock => exact fun held => himp _ _ (h held)
  | setSlot role slot => exact h.elim
  | publish role => exact h.elim
  | _ => exact himp _ _ h

end Progress

/-! ## The one who writes -/

section Writer

open Progress Crew.Replace

variable {born : Handle → Prop} {settings : Settings} {refs : ImageRefs} {p : Progress}

/-- The phase of a slot can always be set. -/
theorem Progress.maySet_phase (himage : p.slot.image = none ∨ p.slot.image = some refs.supervisor)
    (phase : Phase) : p.MaySet born refs.supervisor { p.slot with phase } :=
  ⟨.inl rfl, himage⟩

theorem writes_enter {phase : Phase} {post : Slot → Progress → Prop}
    (himage : p.slot.image = none ∨ p.slot.image = some refs.supervisor)
    (hpost : post { p.slot with phase } { p with slot := { p.slot with phase } }) :
    (enter .supervisor p.slot phase).Ensures (writer born refs.supervisor) post p :=
  ⟨maySet_phase himage phase, hpost⟩

/-- Confirming a container that the slot holds, and recording it. -/
theorem writes_launch {used : String} {post : Replaced → Progress → Prop}
    (hcontainer : p.slot.container = none) (himage : p.slot.image = none)
    (hcalls : p.calls = [.ensureImage])
    (hpost : ∀ result p', (p'.slot.image = none ∨ p'.slot.image = some refs.supervisor) →
      post result p') :
    (launch settings .supervisor refs p.slot used).run.Ensures (writer born refs.supervisor)
      post p := by
  unfold launch
  refine ensures_run_bind.2 (ensures_run_lift.2 (writes_enter (.inl himage) ?_))
  -- the slot is empty, so the handle that comes back is the first to be put there
  refine ensures_run_bind.2 ⟨⟨rfl, hcalls⟩, fun answer hborn => ?_⟩
  cases answer with
  | error cause => exact hpost _ _ (.inl himage)
  | ok handle =>
    refine ensures_run_bind.2 ⟨⟨.inr ⟨hcontainer, handle, rfl, hborn rfl⟩, .inl himage⟩, ?_⟩
    refine ensures_run_bind.2 ⟨⟨⟨handle, rfl, rfl⟩, congrArg (· ++ [_]) hcalls⟩, fun answer _ => ?_⟩
    cases answer with
    | error cause => exact hpost _ _ (.inl himage)
    | ok =>
      refine ensures_run_bind.2 (ensures_run_lift.2 ?_)
      exact ⟨⟨.inl rfl, .inr rfl⟩, hpost _ _ (.inr rfl)⟩

theorem writes_ensureImage {image : String}
    {post : Except Container.Fault String → Progress → Prop} (hcalls : p.calls = [])
    (hpost : ∀ result, post result { p with calls := [.ensureImage] }) :
    (ensureImage settings .supervisor image).Ensures (writer born refs.supervisor) post p := by
  have hcalled : ∀ used, p.called (.ensureImage Role.supervisor.name used) =
      { p with calls := [.ensureImage] } := by
    intro used
    show { p with calls := p.calls ++ [Container.Operation.ensureImage] } = _
    rw [hcalls, List.nil_append]
  have hused : ∀ used, (ensureUsed .supervisor used).Ensures (writer born refs.supervisor)
      post p := by
    intro used
    refine ensures_bind.2 ⟨⟨rfl, hcalls⟩, fun answer _ => ?_⟩
    rw [hcalled]
    cases answer with
    | ok => exact hpost _
    | error cause => exact hpost _
  rw [ensureImage_eq]
  cases resolve settings image with
  | ok used => exact hused used
  | error fault => exact hused image

/-- The steps of the first replace: there is no container to tear down. -/
theorem writes_steps {post : Replaced → Progress → Prop}
    (hcontainer : p.slot.container = none) (himage : p.slot.image = none) (hcalls : p.calls = [])
    (hpost : ∀ result p', (p'.slot.image = none ∨ p'.slot.image = some refs.supervisor) →
      post result p') :
    (steps settings .supervisor refs p.slot).run.Ensures (writer born refs.supervisor) post p := by
  rw [steps_eq, hcontainer]
  refine ensures_run_bind.2 (ensures_bind.2 ?_)
  refine writes_ensureImage hcalls fun ensured => ?_
  cases ensured with
  | error cause => exact hpost _ _ (.inl himage)
  | ok used =>
    refine ensures_run_bind.2 (ensures_run_lift.2 (writes_enter (.inl himage) ?_))
    exact writes_launch hcontainer himage rfl hpost

/-- The first replace of the supervisor. -/
theorem writes_replace (hcontainer : p.slot.container = none) (himage : p.slot.image = none)
    (hcalls : p.calls = []) :
    (replace settings .supervisor refs).Ensures (writer born refs.supervisor)
      (fun _ _ => True) p := by
  refine ensures_bind.2 (ensures_bind.2 ?_)
  unfold replaceLocked
  refine ensures_bind.2 (ensures_bind.2 (ensures_bind.2 ?_))
  refine writes_steps hcontainer himage hcalls fun result p' himage' => ?_
  cases result with
  | ok outcome => trivial
  | error e => exact ⟨maySet_phase himage' _, trivial⟩

end Writer

/-! ## Those who read -/

section Readers

open Progress

/-- How those go on who only read, while the launch goes on as well. -/
abbrev Progress.others : Rule signature Progress := reader.under Later

variable {p : Progress}

theorem reader_slot {α : Type} {next : Slot → Transaction α} {post : α → Progress → Prop}
    (hnext : ∀ p', p.Later p' → (next p'.slot).Ensures others post p') :
    (Transaction.slot .supervisor >>= next).Ensures others post p :=
  fun p' hlater => hnext p' hlater

/-- A container that the slot held when it was read can be tended. -/
theorem reader_call {α : Type} {c : Container.Call} {next : c.Answer → Transaction α}
    {post : α → Progress → Prop} (hc : ∀ p', p.Later p' → p'.MayTend c)
    (hnext : ∀ answer p', p.Later p' → (next answer).Ensures others post p') :
    (Transaction.call c >>= next).Ensures others post p :=
  fun p' hlater => ⟨hc p' hlater, fun answer => hnext answer p' hlater⟩

theorem reader_log {α : Type} {level : Level} {message : String}
    {fields : List (String × EventValue)} {next : Unit → Transaction α}
    {post : α → Progress → Prop} (hnext : ∀ p', p.Later p' → (next ()).Ensures others post p') :
    (Transaction.log level message fields >>= next).Ensures others post p :=
  fun p' hlater => hnext p' hlater

theorem reader_reviveLocked (p : Progress) :
    (reviveLocked .supervisor).Ensures others (fun _ _ => True) p := by
  unfold reviveLocked
  refine reader_slot fun now hnow => ?_
  cases hslot : now.slot.container with
  | none => trivial
  | some handle =>
    -- the container stays in the slot however far the launch goes on meanwhile
    have hholds : now.Holds handle.id := ⟨handle, hslot, rfl⟩
    refine reader_call (fun later hlater => hlater.holds hholds) fun answer asked hasked => ?_
    cases answer with
    | error cause => exact fun _ _ => trivial
    | ok info =>
      show Ensures others _ (if info.state = .exited then _ else _) asked
      split
      · refine reader_log fun told htold => ?_
        refine reader_call (fun later hlater => ((hasked.trans htold).trans hlater).holds hholds)
          fun answer _ _ => ?_
        cases answer with
        | error cause => exact fun _ _ => trivial
        | ok => trivial
      · exact fun _ _ => trivial

/-- The slot of the updater is as at the start, with no container to stop. -/
theorem reader_stopLocked (role : Role) (p : Progress) :
    (stopLocked role).Ensures others (fun _ _ => True) p := by
  unfold stopLocked
  cases role with
  | updater => exact fun _ _ => trivial
  | supervisor =>
    refine reader_slot fun now hnow => ?_
    cases hslot : now.slot.container with
    | none => trivial
    | some handle =>
      have hholds : now.Holds handle.id := ⟨handle, hslot, rfl⟩
      refine reader_log fun told htold => ?_
      refine reader_call (fun later hlater => (htold.trans hlater).holds hholds)
        fun answer _ _ => ?_
      cases answer with
      | error cause => exact fun _ _ => trivial
      | ok => trivial

/-- Whether statuses tell nothing of the updater. -/
def TellsSupervisor (statuses : List RoleStatus) : Prop :=
  ∃ status, statuses = [Slot.status {} .updater none, status] ∧ status.role = .supervisor

theorem reader_statusLocked (p : Progress) :
    (statusLocked .supervisor).Ensures others (fun status _ => status.role = .supervisor) p := by
  unfold statusLocked
  refine reader_slot fun now hnow => ?_
  cases hslot : now.slot.container with
  | none => exact rfl
  | some handle =>
    have hholds : now.Holds handle.id := ⟨handle, hslot, rfl⟩
    refine reader_call (fun later hlater => hlater.holds hholds) fun answer _ _ => ?_
    cases answer with
    | error cause => exact fun _ _ => rfl
    | ok info => exact rfl

theorem reader_roleStatuses (p : Progress) :
    roleStatuses.Ensures others (fun statuses _ => TellsSupervisor statuses) p := by
  intro now hnow held
  cases held with
  | true =>
    have hmono : others.Monotone := reader_monotone.under Later
    -- nothing is asked of the updater, whose slot holds no container
    have hupdater : ∀ p : Progress, (statusLocked .updater).Ensures others
        (fun status _ => status = Slot.status {} .updater none) p := fun _ _ _ => rfl
    refine ensures_bind.2 ?_
    simp only [statusesLocked, Role.all, List.mapM_cons, List.mapM_nil]
    refine ensures_bind.2 (ensures_bind.2 ?_)
    refine (hupdater now).mono hmono fun updater later hsame => ?_
    refine ensures_bind.2 (ensures_bind.2 ((reader_statusLocked later).mono hmono ?_))
    exact fun status _ hstatus _ _ => ⟨status, by rw [hsame], hstatus⟩
  | false =>
    intro later hlater roster hroster
    refine ⟨roster.supervisor.status .supervisor none, ?_, rfl⟩
    simp [Role.all, Roster.slot, hroster]

end Readers

end Crew
end Caretaker
