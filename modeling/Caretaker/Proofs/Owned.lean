import Caretaker.Proofs.History
import Caretaker.Proofs.Memory

/-!
# Containers that belong to roles

Where the crew keeps its containers in memory, the handle in the slot of a role has an id that
belongs to the name of the role's container, whatever else happens to the memory.  So the two roles
never have the same container.

Main statements:

- `Performed.owned`: what was started during some calls belongs to its name after them.
- `Performed.get?`: what calls about other containers do to a container.
- `owned_of_free`: while nobody holds the lock, each handle belongs to its role.
-/

namespace Caretaker.Crew

open Container (Backend Memory Stored)
open Container.Memory (Evolves Meddles Owned Spares)

/-! ## Calls one after the other -/

section Performed

variable {outside : Memory → Memory → Prop} {m m' : Memory} {calls : List Exchange}

/-- No id is given again by calls, nor between them. -/
theorem Performed.evolves (houtside : ∀ m m', outside m m' → Evolves m m')
    (h : Performed outside m calls m') : Evolves m m' := by
  induction h with
  | start => exact .refl m
  | moved _ hmove ih => exact ih.trans (houtside _ _ hmove)
  | called c _ ih => exact ih.trans (Container.Memory.perform_evolves c _)

/-- What was started belongs to its name. -/
theorem Performed.owned (houtside : ∀ m m', outside m m' → Evolves m m')
    (h : Performed outside m calls m') {descriptor : Descriptor} {handle : Handle}
    (hstarted : ⟨.start descriptor, .ok handle⟩ ∈ calls) :
    Owned descriptor.name handle.id m' := by
  obtain ⟨-, m₁, after, -, hanswer, hafter⟩ := h.split hstarted
  exact (Container.Memory.owned_of_start hanswer).evolves (hafter.evolves houtside)

end Performed

/-! ## Calls that nothing interferes with -/

/-- Nothing happens but what is called. -/
def undisturbed (_ _ : Memory) : Prop := False

section Undisturbed

variable {m m' : Memory} {calls : List Exchange}

/-- Whether memory comes to another by calls that it answers one after the other. -/
def Answered (m : Memory) : List Exchange → Memory → Prop
  | [], m' => m' = m
  | exchange :: calls, m' =>
    exchange.answer = (m.perform exchange.call).answer ∧
      Answered (m.perform exchange.call).state calls m'

theorem answered_append {calls calls' : List Exchange} :
    Answered m (calls ++ calls') m' ↔ ∃ m₁, Answered m calls m₁ ∧ Answered m₁ calls' m' := by
  induction calls generalizing m with
  | nil =>
    constructor
    · intro h
      exact ⟨m, rfl, h⟩
    · rintro ⟨m₁, rfl, h⟩
      exact h
  | cons exchange calls ih => simp only [List.cons_append, Answered, ih, and_assoc, exists_and_left]

theorem Answered.failing (h : Answered m calls m') : m'.failing = m.failing := by
  induction calls generalizing m with
  | nil => exact congrArg Memory.failing h
  | cons exchange calls ih => exact (ih h.2).trans (Container.Memory.failing_perform _ m)

/-- Undisturbed, the calls are answered one after the other. -/
theorem Performed.answered (h : Performed undisturbed m calls m') : Answered m calls m' := by
  induction h with
  | start => exact rfl
  | moved _ hmove => exact hmove.elim
  | called c _ ih => exact answered_append.2 ⟨_, ih, rfl, rfl⟩

/-- What a transaction ensures holds after it ran undisturbed. -/
theorem Transaction.ensures_run_undisturbed {α : Type} {t : Transaction α}
    {post : α → Account → Prop} {w : World Memory} (h : t.Ensures Account.rule post w.account) :
    ∃ s : Account, s.Fits undisturbed w.backend (t.run w).2 ∧ post (t.run w).1 s :=
  Transaction.ensures_run h

/-- A call fails just if its operation was told to, where nothing else can go wrong. -/
theorem Performed.awaitExit_ok (h : Performed undisturbed m calls m') {id : String}
    {answer : Except Container.Fault Unit} (hmem : ⟨.awaitExit id, answer⟩ ∈ calls) :
    answer = .ok () ↔ .awaitExit ∉ m.failing := by
  obtain ⟨before, m₁, -, hbefore, hanswer, -⟩ := h.split hmem
  rw [← hanswer, ← hbefore.answered.failing]
  exact Container.Memory.awaitExit_ok_iff

/-- Calls about other containers leave a container as it is, unless they remove all that exited. -/
theorem Performed.get? (h : Performed undisturbed m calls m') {name id : String} {stored : Stored}
    (howned : Owned name id m) (hspares : ∀ exchange ∈ calls, Spares id name exchange.call)
    (hstored : m.containers.get? id = some stored) :
    m'.containers.get? id =
      if .prune ∈ calls.map (·.call) ∧ .prune ∉ m.failing ∧ stored.info.state = .exited then none
      else some stored := by
  induction h with
  | start =>
    rw [if_neg]
    · exact hstored
    · rintro ⟨hmem, -⟩
      cases hmem
  | moved _ hmove => exact hmove.elim
  | @called calls m₁ c hcalls ih =>
    have hbefore := ih fun exchange he => hspares exchange (List.mem_append_left _ he)
    have hlast : Spares id name c :=
      hspares _ (List.mem_append_right _ (List.mem_singleton.2 rfl))
    have howned₁ : Owned name id m₁ := howned.evolves (hcalls.evolves fun _ _ => False.elim)
    have hevolves := Container.Memory.perform_evolves c m₁
    simp only [List.map_append, List.map_cons, List.map_nil, List.mem_append, List.mem_singleton]
    split at hbefore
    · next hgone =>
      -- What is gone stays gone.
      rw [if_pos ⟨.inl hgone.1, hgone.2⟩]
      obtain ⟨n, hn, rfl, -⟩ := howned₁
      cases hafter : (Backend.perform c m₁).state.containers.get? (Container.Memory.idOf n) with
      | none => rfl
      | some c' =>
        obtain ⟨c, hc, -⟩ := hevolves.containers n hn c' hafter
        rw [hbefore] at hc
        cases hc
    · next hthere =>
      refine (Container.Memory.get?_perform howned₁ hlast hbefore).trans (if_congr ?_ rfl rfl)
      rw [hcalls.answered.failing]
      constructor
      · rintro ⟨rfl, hprune⟩
        exact ⟨.inr rfl, hprune⟩
      · rintro ⟨hmem | hmem, hprune⟩
        · exact absurd ⟨hmem, hprune⟩ hthere
        · exact ⟨hmem.symm, hprune⟩

end Undisturbed

/-! ## The containers of the roles -/

/-- A container in a slot after an update was there before, or the update started it. -/
theorem Ends.container_cases {settings : Settings} {role : Role} {refs : ImageRefs}
    {slot slot' : Slot} {calls : List Exchange} {result : Replaced} {handle : Handle}
    (h : Ends settings role refs slot calls result slot')
    (hhandle : slot'.container = some handle) :
    slot.container = some handle ∨
      ∃ descriptor, descriptor.name = role.containerName ∧
        ⟨.start descriptor, .ok handle⟩ ∈ calls := by
  cases h with
  | exitUnconfirmed => exact .inl hhandle
  | pruneFailed => cases hhandle
  | removalUnconfirmed => cases hhandle
  | imageMissing => cases hhandle
  | startFailed => cases hhandle
  | startUnconfirmed removal started cause hremoval =>
    cases hhandle
    exact .inr ⟨_, descriptor_name, List.mem_append_right _ (.tail _ (.head _))⟩
  | replaced removal started hremoval =>
    cases hhandle
    exact .inr ⟨_, descriptor_name, List.mem_append_right _ (.tail _ (.head _))⟩

theorem Taken.container_cases {settings : Settings} {turns : List Turn} {roster roster' : Roster}
    {calls : List Exchange} {role : Role} {handle : Handle}
    (h : Taken settings turns roster calls roster')
    (hhandle : (roster'.slot role).container = some handle) :
    (roster.slot role).container = some handle ∨
      ∃ descriptor, descriptor.name = role.containerName ∧
        ⟨.start descriptor, .ok handle⟩ ∈ calls := by
  induction h with
  | nil => exact .inl hhandle
  | @cons turn turns roster roster' slot calls calls' hturn _ ih =>
    rcases ih hhandle with hbefore | ⟨descriptor, hname, hmem⟩
    · by_cases hrole : turn.role = role
      · -- The turn of the role itself.
        subst hrole
        rw [Roster.slot_put_self] at hbefore
        cases hturn with
        | unchanged => exact .inl hbefore
        | attempted role refs forced hneeded hends =>
          rcases hends.container_cases hbefore with hbefore | ⟨descriptor, hname, hmem⟩
          · exact .inl hbefore
          · exact .inr ⟨descriptor, hname, List.mem_append_left _ hmem⟩
      · rw [Roster.slot_put_ne _ _ (Ne.symm hrole)] at hbefore
        exact .inl hbefore
    · exact .inr ⟨descriptor, hname, List.mem_append_right _ hmem⟩

/-- Whether the handles in a roster belong to the roles. -/
def HandlesOwned (roster : Roster) (m : Memory) : Prop :=
  ∀ role handle, (roster.slot role).container = some handle →
    Owned role.containerName handle.id m

/-- Sessions keep that the handles belong to the roles. -/
theorem kept_handlesOwned (settings : Settings) :
    Kept settings Meddles fun _ roster m => HandlesOwned roster m where
  moves h hmove role handle hhandle := (h role handle hhandle).evolves hmove.evolves
  tends c h _ role handle hhandle :=
    (h role handle hhandle).evolves (Container.Memory.perform_evolves c _)
  updates h htaken hperformed role handle hhandle := by
    have houtside : ∀ m m', Meddles m m' → Evolves m m' := fun _ _ hmove => hmove.evolves
    rcases htaken.container_cases hhandle with hbefore | ⟨descriptor, hname, hmem⟩
    · exact (h role handle hbefore).evolves (hperformed.evolves houtside)
    · rw [← hname]
      exact hperformed.owned houtside hmem

/-- While nobody holds the lock, each handle belongs to its role. -/
theorem owned_of_free {settings : Settings} {m : Memory} {s : Session Memory}
    (h : Session.Reachable settings Meddles m s) (hfree : s.world.lock.holders = []) :
    HandlesOwned s.world.roster s.world.backend := by
  have hinit : HandlesOwned {} m := by
    intro role handle hhandle
    cases role <;> cases hhandle
  exact (h.settled (kept_handlesOwned settings) hinit hfree).2

end Caretaker.Crew
