import Caretaker.Proofs.Sights
import Caretaker.Proofs.Tending

/-!
# Passes over the containers of the roles

A pass of restarts, a stop and the status of the roles go over the containers that are in the
roster, role by role.  A failed call never ends a pass.  Each call is made about a handle of the
roster, and nothing else can be seen of the pass: no slot is set, and no copy is shown.

Main statements:

- `OnlyCalls.of_ensures`: what tells that work does nothing but make its calls.
- `passes_only_call`: the calls of each pass, and that it does nothing else.
-/

namespace Caretaker.Crew

open Container (Backend)
open Script

/-- Whether a call restarts a container. -/
def isRestart : Container.Call → Bool
  | .restart _ => true
  | _ => false

/-! ## What a pass counts -/

section Count

variable {roster : Roster} {container : Option Handle} {includeUpdater : Bool} {count : Nat}
  {calls : List Exchange}

theorem Revival.count_eq (h : Revival container count calls) :
    count = calls.countP fun exchange => isRestart exchange.call := by
  cases h with
  | nothing => rfl
  | unseen => rfl
  | alive => rfl
  | restarted => rfl

/-- A pass counts the restarts it asks for, whether they succeed or not. -/
theorem Pass.count_eq (h : Pass roster includeUpdater count calls) :
    count = calls.countP fun exchange => isRestart exchange.call := by
  cases h with
  | supervisor hrevival => exact hrevival.count_eq
  | both hsupervisor hupdater =>
    rw [List.countP_append, ← hsupervisor.count_eq, ← hupdater.count_eq]

end Count

/-! ## Work that does nothing but make calls -/

section OnlyCalls

variable {ρ : Type} [Backend ρ] {α : Type}

/-- Whether a transaction, run alone, makes these calls and does nothing else: no copy is shown, and
the roster and its copy are left as they are. -/
structure OnlyCalls (t : Transaction α) (w : World ρ) (calls : List Exchange) : Prop where
  sights : t.sights w = calls.map fun exchange => .called exchange w.lastKnown
  roster : (t.run w).2.roster = w.roster
  lastKnown : (t.run w).2.lastKnown = w.lastKnown

/-- Work that tends what is there does nothing but make the calls that accounts tell of. -/
theorem OnlyCalls.of_ensures {t : Transaction α} {w : World ρ}
    {post : α → List Exchange → Prop} (honly : t.Only (S := signature) Request.Tends)
    (h : t.Ensures Account.rule
      (fun value s' => ∃ calls, post value calls ∧ s' = w.account.calling calls) w.account) :
    ∃ calls, post (t.run w).1 calls ∧ OnlyCalls t w calls := by
  obtain ⟨calls, hpost, haccount⟩ := Transaction.ensures_calls h
  have hcalls : exchanges (t.sights w) = calls := congrArg Account.calls haccount
  refine ⟨calls, hpost, ?_, congrArg Account.roster haccount,
    congrArg Account.lastKnown haccount⟩
  rw [← hcalls]
  exact sights_of_only honly w

/-- What an operation does alone is what its work does. -/
theorem OnlyCalls.transaction {settings : Settings} {op : Operation} {w : World ρ}
    {calls : List Exchange} (h : OnlyCalls (op.work settings) w calls) :
    OnlyCalls (op.transaction settings) w calls := by
  have hrun := op.run_transaction settings w
  constructor
  · rw [Operation.sights_transaction]
    exact h.sights
  · rw [hrun]
    exact h.roster
  · rw [hrun]
    exact h.lastKnown

/-- An operation that is no update does nothing but make the calls that accounts tell of. -/
theorem Operation.onlyCalls {settings : Settings} {op : Operation} {w : World ρ}
    {post : Result → List Exchange → Prop} (hop : op.isUpdate = false)
    (h : (op.work settings).Ensures Account.rule
      (fun result s' => ∃ calls, post result calls ∧ s' = w.account.calling calls) w.account) :
    ∃ calls, post ((op.transaction settings).run w).1 calls ∧
      OnlyCalls (op.transaction settings) w calls := by
  obtain ⟨calls, hpost, honly⟩ := OnlyCalls.of_ensures (op.only_work settings hop) h
  rw [← op.run_transaction settings w] at hpost
  exact ⟨calls, hpost, honly.transaction⟩

/-- The same for an operation that goes over both roles. -/
theorem Operation.onlyCalls_both {settings : Settings} {op : Operation} {w : World ρ}
    {post post' : List Exchange → Prop} (hop : op.isUpdate = false)
    (h : (op.work settings).Ensures Account.rule
      (fun _ s' => ∃ calls calls', post calls ∧ post' calls' ∧
        s' = w.account.calling (calls ++ calls')) w.account) :
    ∃ calls calls', post calls ∧ post' calls' ∧
      OnlyCalls (op.transaction settings) w (calls ++ calls') := by
  have hboth : (op.work settings).Ensures Account.rule (fun _ s' => ∃ calls,
      (∃ first second, calls = first ++ second ∧ post first ∧ post' second) ∧
        s' = w.account.calling calls) w.account := by
    apply h.mono Account.rule_monotone
    rintro - s' ⟨first, second, hfirst, hsecond, hs'⟩
    exact ⟨_, ⟨first, second, rfl, hfirst, hsecond⟩, hs'⟩
  obtain ⟨_, ⟨first, second, rfl, hfirst, hsecond⟩, honly⟩ := Operation.onlyCalls hop hboth
  exact ⟨first, second, hfirst, hsecond, honly⟩

/-- A pass of restarts looks at the container of the supervisor and then, if it is included, at that
of the updater, restarts it right after if it was seen exited, and tells how many restarts it asked
for.  A stop asks each container to stop, that of the updater first.  The status of the roles looks
at each container once.  Whatever the calls are answered, none of the three makes another call, sets
a slot or shows a copy. -/
theorem passes_only_call (settings : Settings) (w : World ρ) (includeUpdater : Bool) :
    (∃ count calls,
      (((Operation.keepAlive includeUpdater).transaction settings).run w).1 = .restarts count ∧
      Pass w.roster includeUpdater count calls ∧
      count = (calls.countP fun exchange => isRestart exchange.call) ∧
      OnlyCalls ((Operation.keepAlive includeUpdater).transaction settings) w calls) ∧
    (∃ calls calls', Stops (w.roster.slot .updater).container calls ∧
      Stops (w.roster.slot .supervisor).container calls' ∧
      OnlyCalls (Operation.stopAll.transaction settings) w (calls ++ calls')) ∧
    (∃ calls calls', Looks (w.roster.slot .updater).container calls ∧
      Looks (w.roster.slot .supervisor).container calls' ∧
      OnlyCalls (Operation.roleStatuses.transaction settings) w (calls ++ calls')) := by
  refine ⟨?_, ?_, ?_⟩
  · have hpass : ((Operation.keepAlive includeUpdater).work settings).Ensures Account.rule
        (fun result s' => ∃ calls,
          (∃ count, result = .restarts count ∧ Pass w.roster includeUpdater count calls) ∧
            s' = w.account.calling calls) w.account := by
      apply (Operation.ensures_keepAlive settings includeUpdater).mono Account.rule_monotone
      rintro result s' ⟨count, calls, hresult, hpass, hs'⟩
      exact ⟨calls, ⟨count, hresult, hpass⟩, hs'⟩
    obtain ⟨calls, ⟨count, hresult, hpass⟩, honly⟩ := Operation.onlyCalls rfl hpass
    exact ⟨count, calls, hresult, hpass, hpass.count_eq, honly⟩
  · exact Operation.onlyCalls_both rfl (ensures_stopAll settings w.account)
  · exact Operation.onlyCalls_both rfl (ensures_roleStatuses settings w.account)

end OnlyCalls

end Caretaker.Crew
