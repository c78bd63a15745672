import Caretaker.Crew.Operation
import Caretaker.Proofs.Replace

/-!
# Turns

An update gives one role after the other its turn.  A role that is asked to change only if needed
and runs the image already is left alone, any other turn is a replace.  What an update does is told
by its turns, for it does nothing else.

Main statements:

- `ensures_compareLocked`, `ensures_applyLocked`: an update does what its turns say.
- `Taken.slot_of_notMem`: a role without a turn keeps its slot.
-/

namespace Caretaker.Crew

open Script Transaction

/-- The turn of a role in an update, with what became of it. -/
structure Turn where
  role : Role
  refs : ImageRefs
  /-- Whether the role is given the image also where it runs it already. -/
  forced : Bool
  result : Replaced

/-- The turns in an operation that ended, the first one first. -/
def Operation.turns : Operation → Result → List Turn
  | .replace role refs, .replaced result => [⟨role, refs, true, result⟩]
  | .replaceIfChanged role refs, .replaced result => [⟨role, refs, false, result⟩]
  | .apply refs _, .applied updates =>
    updates.map fun update => ⟨update.role, refs, false, update.result⟩
  | _, _ => []

/-- The turns of an operation that compares bring the same images, and none is forced. -/
theorem Operation.turns_alike {op : Operation} {result : Result} {turn : Turn}
    (hturn : turn ∈ op.turns result) (hforced : turn.forced = false) :
    ∀ other ∈ op.turns result, other.refs = turn.refs ∧ other.forced = false := by
  cases op with
  | replace role refs =>
    cases result with
    | replaced result =>
      rw [List.mem_singleton.1 hturn] at hforced
      cases hforced
    | _ => cases hturn
  | replaceIfChanged role refs =>
    cases result with
    | replaced result =>
      intro other hother
      rw [List.mem_singleton.1 hturn, List.mem_singleton.1 hother]
      exact ⟨rfl, rfl⟩
    | _ => cases hturn
  | apply refs roles =>
    cases result with
    | applied updates =>
      intro other hother
      obtain ⟨update, -, rfl⟩ := List.mem_map.1 hturn
      obtain ⟨update', -, rfl⟩ := List.mem_map.1 hother
      exact ⟨rfl, rfl⟩
    | _ => cases hturn
  | _ => cases hturn

/-- What a turn does to the slot of its role, and the calls that are made for it. -/
inductive Turn.Changes (settings : Settings) (slot : Slot) :
    Turn → List Exchange → Slot → Prop where
  | unchanged (role : Role) (refs : ImageRefs) (himage : slot.image = some (refs.of role)) :
      Changes settings slot ⟨role, refs, false, .ok .unchanged⟩ [] slot
  | attempted (role : Role) (refs : ImageRefs) (forced : Bool) {calls : List Exchange}
      {result : Replaced} {slot' : Slot}
      (hneeded : forced = true ∨ slot.image ≠ some (refs.of role))
      (hends : Ends settings role refs slot calls result slot') :
      Changes settings slot ⟨role, refs, forced, result⟩ calls slot'

/-- What turns do one after the other. -/
inductive Taken (settings : Settings) : List Turn → Roster → List Exchange → Roster → Prop where
  | nil (roster : Roster) : Taken settings [] roster [] roster
  | cons {turn : Turn} {turns : List Turn} {roster roster' : Roster} {slot : Slot}
      {calls calls' : List Exchange}
      (hturn : turn.Changes settings (roster.slot turn.role) calls slot)
      (hturns : Taken settings turns (roster.put turn.role slot) calls' roster') :
      Taken settings (turn :: turns) roster (calls ++ calls') roster'

theorem Taken.single {settings : Settings} {turn : Turn} {roster : Roster} {slot : Slot}
    {calls : List Exchange} (h : turn.Changes settings (roster.slot turn.role) calls slot) :
    Taken settings [turn] roster calls (roster.put turn.role slot) := by
  have hcons := Taken.cons h (.nil _)
  rwa [List.append_nil] at hcons

theorem Taken.of_single {settings : Settings} {turn : Turn} {roster roster' : Roster}
    {calls : List Exchange} (h : Taken settings [turn] roster calls roster') :
    ∃ slot, turn.Changes settings (roster.slot turn.role) calls slot ∧
      roster' = roster.put turn.role slot := by
  cases h with
  | @cons _ _ _ _ slot calls calls' hturn hrest =>
    cases hrest
    rw [List.append_nil]
    exact ⟨slot, hturn, rfl⟩

theorem Taken.append {settings : Settings} {turns turns' : List Turn}
    {roster roster' roster'' : Roster} {calls calls' : List Exchange}
    (h : Taken settings turns roster calls roster')
    (h' : Taken settings turns' roster' calls' roster'') :
    Taken settings (turns ++ turns') roster (calls ++ calls') roster'' := by
  induction h with
  | nil => exact h'
  | cons hturn _ ih =>
    rw [List.append_assoc]
    exact .cons hturn (ih h')

/-- A role without a turn keeps its slot. -/
theorem Taken.slot_of_notMem {settings : Settings} {turns : List Turn} {roster roster' : Roster}
    {calls : List Exchange} {role : Role} (h : Taken settings turns roster calls roster')
    (hrole : ∀ turn ∈ turns, turn.role ≠ role) : roster'.slot role = roster.slot role := by
  induction h with
  | nil => rfl
  | @cons turn turns roster roster' slot calls calls' _ _ ih =>
    have hne : role ≠ turn.role := (hrole turn List.mem_cons_self).symm
    rw [ih fun other hother => hrole other (List.mem_cons_of_mem _ hother)]
    exact Roster.slot_put_ne roster slot hne

/-! ## What an update ensures -/

/-- What is known after turns that were taken under the lock: the roster is theirs, and its copy is
up to date if it was before. -/
def Took (settings : Settings) (turns : List Turn) (s s' : Account) : Prop :=
  ∃ calls, Taken settings turns s.roster calls s'.roster ∧ s'.calls = s.calls ++ calls ∧
    (s.lastKnown = s.roster → s'.lastKnown = s'.roster)

section Update

variable {settings : Settings} {role : Role} {refs : ImageRefs} {s : Account}

theorem Took.ofEnds {forced : Bool} {result : Replaced} {slot : Slot} {calls : List Exchange}
    (hneeded : forced = true ∨ (s.roster.slot role).image ≠ some (refs.of role))
    (h : Ends settings role refs (s.roster.slot role) calls result slot) :
    Took settings [⟨role, refs, forced, result⟩] s (s.after role slot slot calls) := by
  refine ⟨calls, .single (.attempted role refs forced hneeded h), rfl, fun hcopy => ?_⟩
  show s.lastKnown.put role slot = s.roster.put role slot
  rw [hcopy]

theorem Took.trans {turns turns' : List Turn} {s' s'' : Account} (h : Took settings turns s s')
    (h' : Took settings turns' s' s'') : Took settings (turns ++ turns') s s'' := by
  obtain ⟨calls, htaken, hcalls, hcopy⟩ := h
  obtain ⟨calls', htaken', hcalls', hcopy'⟩ := h'
  refine ⟨calls ++ calls', htaken.append htaken', ?_, fun h => hcopy' (hcopy h)⟩
  rw [hcalls', hcalls, List.append_assoc]

/-- A comparison leaves the role alone, or is a replace. -/
theorem ensures_compareLocked :
    (compareLocked settings role refs).Ensures Account.rule (fun result s' =>
      Took settings [⟨role, refs, false, result⟩] s s') s := by
  unfold compareLocked
  simp only [ensures_bind, ensures_slot]
  split
  · next himage =>
    -- The image is the recorded one: nothing but the log tells of the turn.
    simp only [ensures_bind, ensures_log, pure_eq, ensures_done]
    refine ⟨[], ?_, (List.append_nil _).symm, fun hcopy => hcopy⟩
    have htaken : Taken settings [⟨role, refs, false, .ok .unchanged⟩] s.roster [] _ :=
      .single (.unchanged role refs himage)
    rwa [Roster.put_slot] at htaken
  · next himage =>
    refine ensures_replaceLocked.mono Account.rule_monotone ?_
    rintro result s' ⟨slot, calls, hends, rfl⟩
    exact .ofEnds (.inr himage) hends

/-- The turns of an application are those of the roles it came to. -/
theorem ensures_applyLocked {roles : List Role} :
    (applyLocked settings refs roles).Ensures Account.rule (fun updates s' =>
      Took settings (updates.map fun update => ⟨update.role, refs, false, update.result⟩) s s')
      s := by
  induction roles generalizing s with
  | nil => exact ⟨[], .nil _, (List.append_nil _).symm, fun hcopy => hcopy⟩
  | cons role roles ih =>
    simp only [applyLocked, ensures_bind]
    refine ensures_compareLocked.mono Account.rule_monotone ?_
    intro result s' htook
    split
    · -- After a fatal failure the other roles have no turn.
      exact htook
    · rw [ensures_bind]
      refine ih.mono Account.rule_monotone ?_
      intro updates s'' htook'
      exact htook.trans htook'

end Update

end Caretaker.Crew
