import Caretaker.Proofs.Turns

/-!
# The work of an operation

Every operation asks for the lock first and gives it back last; what it does in between is its work.
The work of an update is told by its turns.  The work of any other operation tends what is there: it
looks at containers, restarts them or asks them to stop, and sets no slot.

Main statements:

- `Operation.transaction_of_access`, `transaction_roleStatuses`: an operation is its work under the
  lock.
- `Operation.ensures_work`: the work of an update is that of its turns.
- `Operation.only_work`: the work of any other operation tends what is there.
-/

namespace Caretaker.Crew

open Script Transaction

namespace Operation

/-- Whether an operation may give roles other images. -/
def isUpdate : Operation → Bool
  | replace _ _ | replaceIfChanged _ _ | apply _ _ => true
  | keepAlive _ | stopAll | roleStatuses | snapshot => false

/-- How an operation waits for the lock.  The status of the roles does not wait. -/
def access : Operation → Option Access
  | replace _ _ | replaceIfChanged _ _ | apply _ _ | keepAlive _ => some .exclusive
  | stopAll | snapshot => some .shared
  | roleStatuses => none

/-- Only an update has turns. -/
theorem turns_of_not_update {op : Operation} (h : op.isUpdate = false) (result : Result) :
    op.turns result = [] := by
  cases op with
  | replace => cases h
  | replaceIfChanged => cases h
  | apply => cases h
  | _ => rfl

/-- An update waits until it has the lock alone. -/
theorem access_of_update {op : Operation} (h : op.isUpdate = true) :
    op.access = some .exclusive := by
  cases op with
  | replace => rfl
  | replaceIfChanged => rfl
  | apply => rfl
  | _ => cases h

/-- What an operation does under the lock. -/
def work (settings : Settings) : Operation → Transaction Result
  | replace role refs => .replaced <$> replaceLocked settings role refs
  | replaceIfChanged role refs => .replaced <$> compareLocked settings role refs
  | apply refs roles => .applied <$> applyLocked settings refs roles
  | keepAlive includeUpdater => .restarts <$> keepAliveLocked includeUpdater
  | stopAll => (fun () => .stopped) <$> stopAllLocked
  | roleStatuses => .statuses <$> statusesLocked
  | snapshot => .roster <$> snapshotLocked

end Operation

/-! ## Work under the lock -/

/-- What is done once the lock is held: some work, and the lock is given back. -/
def thenUnlock {α : Type} (body : Transaction α) : Transaction α := do
  let value ← body
  unlock
  return value

@[simp] theorem thenUnlock_done {α : Type} (value : α) :
    thenUnlock (.done value) = Script.ask (S := signature) .unlock fun _ => .done value := rfl

@[simp] theorem thenUnlock_ask {α : Type} (r : Request) (next : r.Answer → Transaction α) :
    thenUnlock (Script.ask (S := signature) r next) =
      Script.ask (S := signature) r fun answer => thenUnlock (next answer) := rfl

theorem map_thenUnlock {α β : Type} (f : α → β) (body : Transaction α) :
    f <$> thenUnlock body = thenUnlock (f <$> body) := by
  unfold thenUnlock
  simp only [map_eq_pure_bind, bind_assoc, pure_bind]

/-- An operation that waits for the lock is its work under the lock. -/
theorem Operation.transaction_of_access {settings : Settings} {op : Operation} {access : Access}
    (h : op.access = some access) :
    op.transaction settings =
      Script.ask (S := signature) (.lock access) fun _ => thenUnlock (op.work settings) := by
  cases op with
  | roleStatuses => cases h
  | _ =>
    cases h
    exact congrArg (Script.ask (S := signature) _) (funext fun _ => map_thenUnlock _ _)

/-- The status of the roles is the work under the lock, or what is last known. -/
theorem Operation.transaction_roleStatuses (settings : Settings) :
    Operation.roleStatuses.transaction settings =
      Script.ask (S := signature) .tryLock fun held : Bool =>
        if held then thenUnlock (Operation.roleStatuses.work settings)
        else
          Script.ask (S := signature) .lastKnown fun roster =>
            .done (.statuses (Role.all.map fun role => (roster.slot role).status role none)) := by
  refine congrArg (Script.ask (S := signature) _) (funext fun held => ?_)
  cases held with
  | true => exact map_thenUnlock _ _
  | false => rfl

/-- An operation that asks for the lock waits for it so. -/
theorem Operation.access_of_transaction {settings : Settings} {op : Operation} {access : Access}
    {next : Unit → Transaction Result}
    (h : op.transaction settings = Script.ask (S := signature) (.lock access) next) :
    op.access = some access := by
  cases haccess : op.access with
  | none =>
    cases op with
    | roleStatuses =>
      rw [transaction_roleStatuses] at h
      cases h
    | _ => cases haccess
  | some access' =>
    rw [transaction_of_access haccess] at h
    cases h
    rfl

/-! ## The work of an update -/

/-- The work of an update is that of its turns. -/
theorem Operation.ensures_work {settings : Settings} {op : Operation} (h : op.isUpdate = true)
    (s : Account) :
    (op.work settings).Ensures Account.rule (fun result s' =>
      Took settings (op.turns result) s s') s := by
  cases op with
  | replace role refs =>
    refine ensures_map.2 (ensures_replaceLocked.mono Account.rule_monotone ?_)
    rintro result s' ⟨slot, calls, hends, rfl⟩
    exact .ofEnds (.inl rfl) hends
  | replaceIfChanged role refs => exact ensures_map.2 ensures_compareLocked
  | apply refs roles => exact ensures_map.2 ensures_applyLocked
  | keepAlive => cases h
  | stopAll => cases h
  | roleStatuses => cases h
  | snapshot => cases h

/-! ## The work of any other operation -/

/-- Whether a call only tends the containers that are there. -/
def tends : Container.Call → Bool
  | .inspect _ | .restart _ | .stop _ => true
  | _ => false

/-- Whether a request sets no slot, leaves the lock alone and calls only to tend containers. -/
def Request.Tends : Request → Prop
  | .call c => tends c = true
  | .log _ | .slot _ | .lastKnown => True
  | .lock _ | .tryLock | .unlock | .setSlot _ _ | .publish _ => False

theorem only_reviveLocked (role : Role) :
    (reviveLocked role).Only (S := signature) Request.Tends := by
  unfold reviveLocked
  refine .bind ⟨trivial, fun slot => trivial⟩ fun slot => ?_
  cases slot.container with
  | none => trivial
  | some handle =>
    refine .bind ⟨rfl, fun answer => trivial⟩ fun answer => ?_
    cases answer with
    | error cause => exact ⟨trivial, fun _ => trivial⟩
    | ok info =>
      show Only _ (if info.state = .exited then _ else _)
      split
      · refine .bind ⟨trivial, fun _ => trivial⟩ fun _ => ?_
        refine .bind ⟨rfl, fun answer => trivial⟩ fun answer => ?_
        cases answer with
        | error cause => exact ⟨trivial, fun _ => trivial⟩
        | ok => trivial
      · exact ⟨trivial, fun _ => trivial⟩

theorem only_stopLocked (role : Role) :
    (stopLocked role).Only (S := signature) Request.Tends := by
  unfold stopLocked
  refine .bind ⟨trivial, fun slot => trivial⟩ fun slot => ?_
  cases slot.container with
  | none => trivial
  | some handle =>
    refine .bind ⟨trivial, fun _ => trivial⟩ fun _ => ?_
    refine .bind ⟨rfl, fun answer => trivial⟩ fun answer => ?_
    cases answer with
    | error cause => exact ⟨trivial, fun _ => trivial⟩
    | ok => trivial

theorem only_statusLocked (role : Role) :
    (statusLocked role).Only (S := signature) Request.Tends := by
  unfold statusLocked
  refine .bind ⟨trivial, fun slot => trivial⟩ fun slot => ?_
  cases slot.container with
  | none => trivial
  | some handle =>
    refine .bind ⟨rfl, fun answer => trivial⟩ fun answer => ?_
    cases answer with
    | error cause => exact ⟨trivial, fun _ => trivial⟩
    | ok info => trivial

/-- The work of an operation that is no update tends what is there. -/
theorem Operation.only_work {op : Operation} (settings : Settings) (h : op.isUpdate = false) :
    (op.work settings).Only (S := signature) Request.Tends := by
  cases op with
  | replace => cases h
  | replaceIfChanged => cases h
  | apply => cases h
  | keepAlive includeUpdater =>
    refine .map _ (.bind (only_reviveLocked .supervisor) fun supervisor => ?_)
    cases includeUpdater with
    | true => exact .bind (only_reviveLocked .updater) fun _ => trivial
    | false => trivial
  | stopAll => exact .map _ (.bind (only_stopLocked .updater) fun _ => only_stopLocked .supervisor)
  | roleStatuses =>
    -- One role after the other, the updater first.
    refine .map _ ?_
    simp only [statusesLocked, Role.all, List.mapM_cons, List.mapM_nil]
    refine .bind (only_statusLocked .updater) fun _ => ?_
    refine .bind (.bind (only_statusLocked .supervisor) fun _ => ?_) fun _ => trivial
    trivial
  | snapshot => exact .map _ ⟨trivial, fun _ => ⟨trivial, fun _ => trivial⟩⟩

end Caretaker.Crew
