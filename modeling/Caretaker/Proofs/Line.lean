import Caretaker.Proofs.Serial

/-!
# Operations in line

Everybody who asked for the lock stands in a line: first those that were let in, in the order in
which they asked, then those that wait.  Of those that were let in some hold the lock still, and
they agree with operations in a row; the others ended as they would have in a row.  The calls of a
writer form one block.  That is what every move keeps.

Main statements:

- `Line.asks`, `Line.answers`, `Line.leaves`: what is kept by an operation that asks for the lock,
  that is answered under it, and that gives it back.
- `Line.step`: what every move keeps.
-/

namespace Caretaker.Crew

open Container (Memory)
open Script Holder

/-! ## Blocks of calls -/

/-- Whether the calls of somebody form one block. -/
def Block (who : Nat) (calls : List (Nat × Container.Call)) : Prop :=
  ∃ before block after, calls = before ++ block ++ after ∧ (∀ e ∈ block, e.1 = who) ∧
    ∀ e ∈ before ++ after, e.1 ≠ who

/-- Whether the calls of somebody form one block at the end. -/
def LastBlock (who : Nat) (calls : List (Nat × Container.Call)) : Prop :=
  ∃ before block, calls = before ++ block ∧ (∀ e ∈ block, e.1 = who) ∧ ∀ e ∈ before, e.1 ≠ who

section Blocks

variable {who : Nat} {calls : List (Nat × Container.Call)}

theorem LastBlock.block (h : LastBlock who calls) : Block who calls := by
  obtain ⟨before, block, rfl, hblock, hbefore⟩ := h
  refine ⟨before, block, [], (List.append_nil _).symm, hblock, ?_⟩
  rwa [List.append_nil]

theorem lastBlock_of_none (h : ∀ e ∈ calls, e.1 ≠ who) : LastBlock who calls :=
  ⟨calls, [], (List.append_nil _).symm, fun _ hmem => absurd hmem List.not_mem_nil, h⟩

/-- A call of its own makes the last block longer. -/
theorem LastBlock.called (h : LastBlock who calls) (c : Container.Call) :
    LastBlock who (calls ++ [(who, c)]) := by
  obtain ⟨before, block, rfl, hblock, hbefore⟩ := h
  refine ⟨before, block ++ [(who, c)], List.append_assoc _ _ _, fun e hmem => ?_, hbefore⟩
  rcases List.mem_append.1 hmem with hmem | hmem
  · exact hblock e hmem
  · rw [List.mem_singleton.1 hmem]

/-- A call of somebody else comes after the block. -/
theorem Block.called (h : Block who calls) {other : Nat} (hother : other ≠ who)
    (c : Container.Call) : Block who (calls ++ [(other, c)]) := by
  obtain ⟨before, block, after, rfl, hblock, hothers⟩ := h
  refine ⟨before, block, after ++ [(other, c)], List.append_assoc _ _ _, hblock, ?_⟩
  rw [← List.append_assoc]
  intro e hmem
  rcases List.mem_append.1 hmem with hmem | hmem
  · exact hothers e hmem
  · rw [List.mem_singleton.1 hmem]
    exact hother

end Blocks

/-! ## Where everybody stands -/

/-- Where an operation stands: not there, begun, in the queue, let in, at its work, or gone. -/
inductive Stage (settings : Settings) (granted waiting : List (Nat × Operation))
    (holders : List Holder) (ended : List (Nat × Result)) (who : Nat) : Option Pending → Prop where
  | absent (hnew : who ∉ (granted ++ waiting).map (·.1)) :
      Stage settings granted waiting holders ended who none
  | begun (op : Operation) (hop : op.access.isSome)
      (hnew : who ∉ (granted ++ waiting).map (·.1)) :
      Stage settings granted waiting holders ended who (some ⟨op, op.transaction settings⟩)
  | queued (op : Operation) (hmem : (who, op) ∈ waiting) :
      Stage settings granted waiting holders ended who (some ⟨op, op.transaction settings⟩)
  | admitted (op : Operation) (hmem : enters settings (who, op) ∈ holders) :
      Stage settings granted waiting holders ended who (some ⟨op, op.transaction settings⟩)
  | inside (op : Operation) (body : Transaction Result) (hmem : ⟨who, op, body⟩ ∈ holders) :
      Stage settings granted waiting holders ended who (some ⟨op, thenUnlock body⟩)
  | gone (op : Operation) (result : Result) (hmem : (who, op) ∈ granted)
      (hout : ∀ h ∈ holders, h.who ≠ who) (hended : (who, result) ∈ ended) :
      Stage settings granted waiting holders ended who none

/-- Who is not moved itself stands where it stood, or is let in. -/
theorem Stage.mono {settings : Settings}
    {granted waiting granted' waiting' : List (Nat × Operation)} {holders holders' : List Holder}
    {ended ended' : List (Nat × Result)} {who : Nat} {pending : Option Pending}
    (h : Stage settings granted waiting holders ended who pending)
    (hasked : who ∈ (granted' ++ waiting').map (·.1) → who ∈ (granted ++ waiting).map (·.1))
    (hwaiting : ∀ op, (who, op) ∈ waiting →
      (who, op) ∈ waiting' ∨ enters settings (who, op) ∈ holders')
    (hholders : ∀ op body, ⟨who, op, body⟩ ∈ holders → ⟨who, op, body⟩ ∈ holders')
    (hgranted : granted ⊆ granted')
    (hout : who ∈ granted.map (·.1) → (∀ h ∈ holders, h.who ≠ who) → ∀ h ∈ holders', h.who ≠ who)
    (hended : ended ⊆ ended') : Stage settings granted' waiting' holders' ended' who pending := by
  cases h with
  | absent hnew => exact .absent fun hmem => hnew (hasked hmem)
  | begun op hop hnew => exact .begun op hop fun hmem => hnew (hasked hmem)
  | queued op hmem =>
    rcases hwaiting op hmem with hmem | hmem
    · exact .queued op hmem
    · exact .admitted op hmem
  | admitted op hmem => exact .admitted op (hholders _ _ hmem)
  | inside op body hmem => exact .inside op body (hholders _ _ hmem)
  | gone op result hmem hnone hresult =>
    exact .gone op result (hgranted hmem) (hout (List.mem_map_of_mem hmem) hnone) (hended hresult)

/-! ## The line -/

/-- The calls of those who were let in: the calls of a writer form one block, which goes on while it
holds the lock. -/
structure Blocks (granted : List (Nat × Operation)) (holders : List Holder)
    (calls : List (Nat × Container.Call)) : Prop where
  known : ∀ e ∈ calls, e.1 ∈ granted.map (·.1)
  block : ∀ e ∈ granted, e.2.access = some .exclusive → Block e.1 calls
  last : ∀ h ∈ holders, h.operation.access = some .exclusive → LastBlock h.who calls

/-- A call as memory remembers it. -/
def recorded (e : Nat × Container.Call) : Container.Recorded := ⟨e.2.operation, e.2.target⟩

/-- Everybody in line.  The lock was begun to be asked for in the world `w₀`; `granted` are those
that were let in, `waiting` those that wait, and `holders` those that hold the lock. -/
structure Line (settings : Settings) (w₀ : World Memory) (s : Chronicle)
    (granted waiting : List (Nat × Operation)) (holders : List Holder) : Prop where
  asked : s.asked = granted ++ waiting
  access : ∀ e ∈ granted ++ waiting, e.2.access.isSome
  once : ((granted ++ waiting).map (·.1)).Nodup
  lock : s.world.lock = { holders := holders.map Holder.entry, queue := waiting.map entryOf }
  sound : s.world.lock.Sound
  held : ∀ h ∈ holders, (h.who, h.operation) ∈ granted
  /-- Nobody waits for a lock that nobody holds. -/
  attended : holders = [] → waiting = []
  stage : ∀ who, Stage settings granted waiting holders s.ended who (s.underway who)
  agrees : Agrees settings w₀ s.world granted holders
  results : ∀ e ∈ s.ended, e ∈ (serially settings granted w₀).1
  history : s.world.backend.calls = w₀.backend.calls ++ s.calls.map recorded
  blocks : Blocks granted holders s.calls

section Line

variable {settings : Settings} {w₀ : World Memory} {s : Chronicle}
  {granted waiting : List (Nat × Operation)} {holders : List Holder} {who : Nat} {op : Operation}

theorem line_start (settings : Settings) (w : World Memory) :
    Line settings w (Chronicle.start w) [] [] [] where
  asked := rfl
  access := fun _ hmem => absurd hmem List.not_mem_nil
  once := List.nodup_nil
  lock := rfl
  sound := FairLock.sound_empty
  held := fun _ hmem => absurd hmem List.not_mem_nil
  attended := fun _ => rfl
  stage := fun _ => .absent List.not_mem_nil
  agrees := ⟨.inl fun _ hmem => absurd hmem List.not_mem_nil, rfl,
    fun _ hmem => absurd hmem List.not_mem_nil⟩
  results := fun _ hmem => absurd hmem List.not_mem_nil
  history := (List.append_nil _).symm
  blocks := ⟨fun _ hmem => absurd hmem List.not_mem_nil,
    fun _ hmem => absurd hmem List.not_mem_nil, fun _ hmem => absurd hmem List.not_mem_nil⟩

/-- Everybody stands as before when one operation goes on and nobody else is moved. -/
theorem stage_update {granted' waiting' : List (Nat × Operation)} {holders' : List Holder}
    {ended' : List (Nat × Result)} {pending : Option Pending}
    (hothers : ∀ other, other ≠ who →
      Stage settings granted' waiting' holders' ended' other (s.underway other))
    (hwho : Stage settings granted' waiting' holders' ended' who pending) (other : Nat) :
    Stage settings granted' waiting' holders' ended' other
      (Function.update s.underway who pending other) := by
  by_cases heq : other = who
  · subst heq
    rw [Function.update_self]
    exact hwho
  · rw [Function.update_of_ne heq]
    exact hothers other heq

/-- Nobody but one operation goes on, by nothing that others could notice. -/
theorem Line.restage (h : Line settings w₀ s granted waiting holders) {pending : Option Pending}
    (hwho : Stage settings granted waiting holders s.ended who pending) :
    Line settings w₀ { s with underway := Function.update s.underway who pending }
      granted waiting holders :=
  { h with stage := stage_update (fun other _ => h.stage other) hwho }

theorem Line.begins (h : Line settings w₀ s granted waiting holders) (hop : op.access.isSome)
    (hnew : who ∉ s.asked.map (·.1)) :
    Line settings w₀
      { s with underway := Function.update s.underway who (some ⟨op, op.transaction settings⟩) }
      granted waiting holders := by
  rw [h.asked] at hnew
  exact h.restage (.begun op hop hnew)

theorem Line.gates (h : Line settings w₀ s granted waiting holders)
    (gated : List Container.Operation) :
    Line settings w₀ { s with world := { s.world with gated } } granted waiting holders :=
  { h with agrees := h.agrees.frame rfl rfl rfl }

/-! ### Asking for the lock -/

theorem Line.notMem_entries (h : Line settings w₀ s granted waiting holders)
    (hnew : who ∉ (granted ++ waiting).map (·.1)) :
    who ∉ s.world.lock.entries.map (·.1) := by
  intro hmem
  refine hnew ?_
  rw [h.lock, FairLock.entries, List.map_append, List.mem_append] at hmem
  rw [List.map_append, List.mem_append]
  rcases hmem with hmem | hmem
  · simp only [List.map_map, List.mem_map] at hmem
    obtain ⟨holder, hholder, rfl⟩ := hmem
    exact .inl (List.mem_map_of_mem (h.held holder hholder))
  · simp only [List.map_map, List.mem_map] at hmem
    obtain ⟨e, he, rfl⟩ := hmem
    exact .inr (List.mem_map_of_mem he)

theorem mem_entered {news : List (Nat × Operation)} {holder : Holder} :
    holder ∈ (news.map (enters settings)).reverse ++ holders ↔
      (∃ e ∈ news, enters settings e = holder) ∨ holder ∈ holders := by
  rw [List.mem_append, List.mem_reverse, List.mem_map]

/-- Who was let in before and holds the lock no more does not come to hold it when others are let
in. -/
theorem out_of_entered {news : List (Nat × Operation)}
    (hnews : ∀ e ∈ news, e.1 ∉ granted.map (·.1)) (hgranted : who ∈ granted.map (·.1))
    (hout : ∀ holder ∈ holders, holder.who ≠ who) :
    ∀ holder ∈ (news.map (enters settings)).reverse ++ holders, holder.who ≠ who := by
  intro holder hmem heq
  rcases mem_entered.1 hmem with ⟨e, he, rfl⟩ | hmem
  · exact hnews e he (by rwa [show e.1 = who from heq])
  · exact hout holder hmem heq

/-- Those that are let in made no call yet, and their blocks begin. -/
theorem Blocks.grant {calls : List (Nat × Container.Call)} (h : Blocks granted holders calls)
    (news : List (Nat × Operation)) (hnews : ∀ e ∈ news, e.1 ∉ granted.map (·.1)) :
    Blocks (granted ++ news) ((news.map (enters settings)).reverse ++ holders) calls := by
  have hlast : ∀ e ∈ news, LastBlock e.1 calls := by
    intro e hmem
    refine lastBlock_of_none fun call hcall heq => ?_
    exact hnews e hmem (heq ▸ h.known call hcall)
  refine ⟨fun e hmem => ?_, fun e hmem haccess => ?_, fun holder hmem haccess => ?_⟩
  · rw [List.map_append]
    exact List.mem_append_left _ (h.known e hmem)
  · rcases List.mem_append.1 hmem with hmem | hmem
    · exact h.block e hmem haccess
    · exact (hlast e hmem).block
  · rcases mem_entered.1 hmem with ⟨e, he, rfl⟩ | hmem
    · exact hlast e he
    · exact h.last holder hmem haccess

/-- Somebody new at the end of the line. -/
theorem Line.once_concat (h : Line settings w₀ s granted waiting holders) (op : Operation)
    (hnew : who ∉ (granted ++ waiting).map (·.1)) :
    ((granted ++ waiting ++ [(who, op)]).map (·.1)).Nodup := by
  rw [List.map_append]
  refine List.nodup_append'.2 ⟨h.once, List.nodup_singleton _, ?_⟩
  intro other hmem hother
  obtain rfl := List.mem_singleton.1 hother
  exact hnew hmem

theorem Line.access_concat (h : Line settings w₀ s granted waiting holders) (who : Nat)
    (hop : op.access.isSome) :
    ∀ e ∈ granted ++ waiting ++ [(who, op)], e.2.access.isSome := by
  intro e hmem
  rcases List.mem_append.1 hmem with hmem | hmem
  · exact h.access e hmem
  · rw [List.mem_singleton.1 hmem]
    exact hop

/-- Others do not become new ones. -/
theorem mem_of_mem_concat {line : List (Nat × Operation)} {other : Nat} (hne : other ≠ who)
    (hmem : other ∈ (line ++ [(who, op)]).map (·.1)) : other ∈ line.map (·.1) := by
  rw [List.map_append] at hmem
  rcases List.mem_append.1 hmem with hmem | hmem
  · exact hmem
  · exact absurd (List.mem_singleton.1 hmem) hne

/-- Who asks for the lock while nobody waits may be let in at once. -/
theorem Line.admits (h : Line settings w₀ s granted [] holders) (hop : op.access.isSome)
    (hnew : who ∉ granted.map (·.1)) (hadmits : s.world.lock.admits op.mode = true)
    (hacquire : s.world.lock.acquire who op.mode =
      (true, { s.world.lock with holders := (who, op.mode) :: s.world.lock.holders })) :
    Line settings w₀
      { s with
        asked := s.asked ++ [(who, op)]
        world := { s.world with
          lock := { s.world.lock with holders := (who, op.mode) :: s.world.lock.holders } }
        underway := Function.update s.underway who (some ⟨op, thenUnlock (op.work settings)⟩) }
      (granted ++ [(who, op)]) [] (enters settings (who, op) :: holders) := by
  have honce := h.once_concat op (by rwa [List.append_nil])
  have haccess := h.access_concat who hop
  rw [List.append_nil] at honce haccess
  constructor
  case attended => exact fun _ => rfl
  case history => exact h.history
  case asked =>
    show s.asked ++ [(who, op)] = _
    rw [h.asked, List.append_nil, List.append_nil]
  case access =>
    rwa [List.append_nil]
  case once =>
    rwa [List.append_nil]
  case lock =>
    show { s.world.lock with holders := (who, op.mode) :: s.world.lock.holders } = _
    rw [h.lock]
    rfl
  case sound =>
    have hsound : (s.world.lock.acquire who op.mode).2.Sound := h.sound.acquire
    rwa [hacquire] at hsound
  case held =>
    intro holder hmem
    rcases List.mem_cons.1 hmem with rfl | hmem
    · exact List.mem_append_right _ List.mem_cons_self
    · exact List.mem_append_left _ (h.held holder hmem)
  case stage =>
    refine stage_update (fun other hne => ?_) (.inside op _ List.mem_cons_self)
    refine (h.stage other).mono ?_ ?_ ?_ (List.subset_append_left _ _) ?_ (List.Subset.refl _)
    · rw [List.append_nil, List.append_nil]
      exact mem_of_mem_concat hne
    · intro op' hmem
      cases hmem
    · exact fun op' body hmem => List.mem_cons_of_mem _ hmem
    · intro _ hnone holder hmem
      rcases List.mem_cons.1 hmem with rfl | hmem
      · exact fun heq => hne heq.symm
      · exact hnone holder hmem
  case agrees =>
    have hadmits' : FairLock.admits { holders := holders.map Holder.entry } op.mode = true := by
      rw [h.lock] at hadmits
      exact hadmits
    exact (h.agrees.grant who hop hadmits').frame rfl rfl rfl
  case results =>
    exact fun e hmem => results_append granted [(who, op)] w₀ (h.results e hmem)
  case blocks =>
    exact h.blocks.grant [(who, op)] (by simpa using hnew)

/-- Who asks for the lock may have to wait behind all others. -/
theorem Line.queues (h : Line settings w₀ s granted waiting holders) (hop : op.access.isSome)
    (hwho : s.underway who = some ⟨op, op.transaction settings⟩)
    (hnew : who ∉ (granted ++ waiting).map (·.1)) (hheld : holders ≠ [])
    (hacquire : s.world.lock.acquire who op.mode =
      (false, { s.world.lock with queue := s.world.lock.queue ++ [(who, op.mode)] })) :
    Line settings w₀
      { s with
        asked := s.asked ++ [(who, op)]
        world := { s.world with
          lock := { s.world.lock with queue := s.world.lock.queue ++ [(who, op.mode)] } } }
      granted (waiting ++ [(who, op)]) holders := by
  have honce := h.once_concat op hnew
  have haccess := h.access_concat who hop
  rw [List.append_assoc] at honce haccess
  refine { h with
    asked := ?asked
    access := haccess
    once := honce
    lock := ?lock
    sound := ?sound
    attended := fun hnone => absurd hnone hheld
    stage := fun other => ?stage
    agrees := h.agrees.frame rfl rfl rfl }
  case asked =>
    show s.asked ++ [(who, op)] = _
    rw [h.asked, List.append_assoc]
  case lock =>
    show { s.world.lock with queue := s.world.lock.queue ++ [(who, op.mode)] } = _
    rw [h.lock, List.map_append]
    rfl
  case sound =>
    have hsound : (s.world.lock.acquire who op.mode).2.Sound := h.sound.acquire
    rwa [hacquire] at hsound
  case stage =>
    show Stage settings granted (waiting ++ [(who, op)]) holders s.ended other (s.underway other)
    by_cases heq : other = who
    · subst heq
      rw [hwho]
      exact .queued op (List.mem_append_right _ List.mem_cons_self)
    · refine (h.stage other).mono ?_ ?_ (fun _ _ hmem => hmem) (List.Subset.refl _)
        (fun _ hnone => hnone) (List.Subset.refl _)
      · rw [← List.append_assoc]
        exact mem_of_mem_concat heq
      · exact fun op' hmem => .inl (List.mem_append_left _ hmem)

/-- Who asks for the lock is let in, or waits behind all others. -/
theorem Line.asks (h : Line settings w₀ s granted waiting holders) (hop : op.access.isSome)
    (hwho : s.underway who = some ⟨op, op.transaction settings⟩)
    (hnew : who ∉ (granted ++ waiting).map (·.1)) :
    ∃ granted' waiting' holders',
      Line settings w₀
        ((s.noteAsked who op (.lock op.mode)).attempt who op (.lock op.mode)
          fun _ => thenUnlock (op.work settings))
        granted' waiting' holders' := by
  have hasked : who ∉ s.asked.map (·.1) := by rwa [h.asked]
  rw [Chronicle.noteAsked_of_new hasked]
  let noted : Chronicle := { s with asked := s.asked ++ [(who, op)] }
  rcases FairLock.acquire_of_new (h.notMem_entries hnew) op.mode with
    ⟨hqueue, hadmits, hacquire⟩ | ⟨hbusy, hacquire⟩
  · have hwaiting : waiting = [] := by
      rw [h.lock] at hqueue
      exact List.map_eq_nil_iff.1 hqueue
    subst hwaiting
    have hattempt : noted.world.attempt who (.lock op.mode) = (some (), { s.world with
        lock := { s.world.lock with holders := (who, op.mode) :: s.world.lock.holders } }) := by
      rw [Session.attempt_lock, hacquire]
      rfl
    have hstate : noted.attempt who op (.lock op.mode) (fun _ => thenUnlock (op.work settings)) =
        _ := Chronicle.attempt_of_answer hattempt rfl
    have hnocall : noted.calls ++ (((Request.lock op.mode).call?.map fun c => (who, c)).toList) =
        s.calls := List.append_nil _
    rw [List.append_nil] at hnew
    rw [hstate, hnocall]
    exact ⟨_, _, _, h.admits hop hnew hadmits hacquire⟩
  · have hattempt : noted.world.attempt who (.lock op.mode) = (none, { s.world with
        lock := { s.world.lock with queue := s.world.lock.queue ++ [(who, op.mode)] } }) := by
      rw [Session.attempt_lock, hacquire]
      rfl
    have hstate : noted.attempt who op (.lock op.mode) (fun _ => thenUnlock (op.work settings)) =
        _ := Chronicle.attempt_of_waits hattempt
    have hheld : holders ≠ [] := by
      intro hnone
      rw [h.lock, h.attended hnone, hnone] at hbusy
      exact hbusy rfl rfl
    rw [hstate]
    exact ⟨_, _, _, h.queues hop hwho hnew hheld hacquire⟩

/-- Who waits asks again in vain. -/
theorem Line.asksAgain (h : Line settings w₀ s granted waiting holders)
    (hmem : (who, op) ∈ waiting) :
    (s.noteAsked who op (.lock op.mode)).attempt who op (.lock op.mode)
      (fun _ => thenUnlock (op.work settings)) = s := by
  have hasked : who ∈ s.asked.map (·.1) := by
    rw [h.asked]
    exact List.mem_map_of_mem (List.mem_append_right granted hmem)
  have hqueue : (who, op.mode) ∈ s.world.lock.queue := by
    rw [h.lock]
    exact List.mem_map_of_mem hmem
  have hattempt : s.world.attempt who (.lock op.mode) = (none, s.world) := by
    rw [Session.attempt_lock, h.sound.acquire_of_awaits hqueue]
    rfl
  rw [Chronicle.noteAsked_of_mem hasked]
  exact Chronicle.attempt_of_waits hattempt

theorem Line.mem_asked (h : Line settings w₀ s granted waiting holders) {holder : Holder}
    (hmem : holder ∈ holders) : holder.who ∈ s.asked.map (·.1) := by
  rw [h.asked]
  exact List.mem_map_of_mem (List.mem_append_left waiting (h.held holder hmem))

/-- Who was handed the lock goes on with its work. -/
theorem Line.entered (h : Line settings w₀ s granted waiting holders)
    (hmem : enters settings (who, op) ∈ holders) :
    (s.noteAsked who op (.lock op.mode)).attempt who op (.lock op.mode)
        (fun _ => thenUnlock (op.work settings)) =
      { s with
        underway :=
          Function.update s.underway who (some ⟨op, thenUnlock (op.work settings)⟩) } := by
  have hholds : (who, op.mode) ∈ s.world.lock.holders := by
    rw [h.lock]
    exact List.mem_map_of_mem hmem
  have hattempt : s.world.attempt who (.lock op.mode) = (some (), s.world) := by
    rw [Session.attempt_lock, FairLock.acquire_of_holds hholds]
    rfl
  have hnocall : s.calls ++ (((Request.lock op.mode).call?.map fun c => (who, c)).toList) =
      s.calls := List.append_nil _
  have hasked : who ∈ s.asked.map (·.1) := h.mem_asked hmem
  rw [Chronicle.noteAsked_of_mem hasked, Chronicle.attempt_of_answer hattempt rfl, hnocall]

/-! ### Under the lock -/

/-- The calls go on by the call of a request, if it is one. -/
theorem calls_answer (w : World Memory) (r : Request) (who : Nat) :
    (w.answer r).2.backend.calls =
      w.backend.calls ++ ((r.call?.map fun c => (who, c)).toList).map recorded := by
  cases r with
  | call c =>
    show (Memory.perform c w.backend).state.history.reverse = w.backend.history.reverse ++ _
    rw [Memory.history_perform, List.reverse_cons]
    rfl
  | _ => exact (List.append_nil _).symm

/-- Blocks are about who holds the lock, not about the work that is left. -/
theorem Blocks.of_subset {calls : List (Nat × Container.Call)} (h : Blocks granted holders calls)
    {holders' : List Holder}
    (hholders : ∀ holder' ∈ holders', ∃ holder ∈ holders,
      holder.who = holder'.who ∧ holder.operation = holder'.operation) :
    Blocks granted holders' calls := by
  refine ⟨h.known, h.block, fun holder' hmem' haccess => ?_⟩
  obtain ⟨holder, hmem, hwho, hop⟩ := hholders holder' hmem'
  rw [← hwho]
  rw [← hop] at haccess
  exact h.last holder hmem haccess

/-- A call under the lock: a writer makes its block longer, and a reader calls while no writer holds
the lock. -/
theorem Blocks.called {calls : List (Nat × Container.Call)} (h : Blocks granted holders calls)
    (honce : (granted.map (·.1)).Nodup) (hheld : ∀ holder ∈ holders,
      (holder.who, holder.operation) ∈ granted) {w : World Memory}
    (hshape : Shared holders ∨ Alone holders w) {holder : Holder} (hmem : holder ∈ holders)
    (c : Container.Call) : Blocks granted holders (calls ++ [(holder.who, c)]) := by
  refine ⟨fun e he => ?_, fun e he haccess => ?_, fun other hother haccess => ?_⟩
  · rcases List.mem_append.1 he with he | he
    · exact h.known e he
    · rw [List.mem_singleton.1 he]
      exact List.mem_map_of_mem (hheld holder hmem)
  · by_cases heq : e.1 = holder.who
    · -- It is the writer itself that calls.
      have hsame : e = (holder.who, holder.operation) :=
        List.inj_on_of_nodup_map honce he (hheld holder hmem) heq
      subst hsame
      exact ((h.last holder hmem haccess).called c).block
    · exact (h.block e he haccess).called (fun hne => heq hne.symm) c
  · rcases hshape with hshared | ⟨alone, -, -, rfl, -⟩
    · rw [(hshared other hother).1] at haccess
      cases haccess
    · -- A writer that holds the lock is the only one to call.
      rw [List.mem_singleton.1 hother] at haccess ⊢
      rw [List.mem_singleton.1 hmem]
      exact (h.last alone List.mem_cons_self haccess).called c

/-- What holders ask for is not about the lock. -/
theorem Agrees.isLocking {w : World Memory} (h : Agrees settings w₀ w granted holders) {r : Request}
    {next : r.Answer → Transaction Result}
    (hmem : ⟨who, op, Script.ask (S := signature) r next⟩ ∈ holders) : r.isLocking = false := by
  rcases h.shape with hshared | ⟨alone, account, b, rfl, -, -, hbody⟩
  · obtain ⟨-, hr, -⟩ := hshared _ hmem
    cases r with
    | lock => exact hr.elim
    | tryLock => exact hr.elim
    | unlock => exact hr.elim
    | _ => rfl
  · rw [← List.mem_singleton.1 hmem] at hbody
    exact Account.isLocking_of_rule hbody

/-- A request of a holder is answered as if nobody else were there, and the line goes on. -/
theorem Line.answers {before after : List Holder} {r : Request}
    {next : r.Answer → Transaction Result}
    (h : Line settings w₀ s granted waiting
      (before ++ ⟨who, op, Script.ask (S := signature) r next⟩ :: after)) :
    Line settings w₀
      { s with
        world := (s.world.answer r).2
        underway := Function.update s.underway who
          (some ⟨op, thenUnlock (next (s.world.answer r).1)⟩)
        calls := s.calls ++ (r.call?.map fun c => (who, c)).toList }
      granted waiting (before ++ ⟨who, op, next (s.world.answer r).1⟩ :: after) := by
  let asking : Holder := ⟨who, op, Script.ask (S := signature) r next⟩
  let answered : Holder := ⟨who, op, next (s.world.answer r).1⟩
  have hasking : asking ∈ before ++ asking :: after :=
    List.mem_append_right _ List.mem_cons_self
  -- Everybody holds the lock as before.
  have hback : ∀ holder' ∈ before ++ answered :: after, ∃ holder ∈ before ++ asking :: after,
      holder.who = holder'.who ∧ holder.operation = holder'.operation := by
    intro holder hmem
    rcases List.mem_append.1 hmem with hmem | hmem
    · exact ⟨holder, List.mem_append_left _ hmem, rfl, rfl⟩
    · rcases List.mem_cons.1 hmem with rfl | hmem
      · exact ⟨asking, hasking, rfl, rfl⟩
      · exact ⟨holder, List.mem_append_right _ (List.mem_cons_of_mem _ hmem), rfl, rfl⟩
  have hlock : (s.world.answer r).2.lock = s.world.lock := World.answer_lock _ _
  refine { h with
    lock := ?lock
    sound := ?sound
    held := ?held
    attended := ?attended
    stage := ?stage
    agrees := h.agrees.answer
    history := ?history
    blocks := ?blocks }
  case lock =>
    show (s.world.answer r).2.lock = _
    rw [hlock, h.lock, List.map_append, List.map_append]
    rfl
  case sound =>
    show (s.world.answer r).2.lock.Sound
    rw [hlock]
    exact h.sound
  case held =>
    intro holder' hmem'
    obtain ⟨holder, hmem, hwho, hop⟩ := hback holder' hmem'
    rw [← hwho, ← hop]
    exact h.held holder hmem
  case attended =>
    intro hnone
    exact absurd hnone (by simp)
  case stage =>
    refine stage_update (fun other hne => ?_)
      (.inside op _ (List.mem_append_right _ List.mem_cons_self))
    refine (h.stage other).mono id (fun op' hmem => .inl hmem) ?_ (List.Subset.refl _) ?_
      (List.Subset.refl _)
    · intro op' body hmem
      rcases List.mem_append.1 hmem with hmem | hmem
      · exact List.mem_append_left _ hmem
      · rcases List.mem_cons.1 hmem with heq | hmem
        · exact absurd (congrArg Holder.who heq) hne
        · exact List.mem_append_right _ (List.mem_cons_of_mem _ hmem)
    · intro _ hnone holder' hmem'
      obtain ⟨holder, hmem, hwho, -⟩ := hback holder' hmem'
      rw [← hwho]
      exact hnone holder hmem
  case history =>
    show (s.world.answer r).2.backend.calls = _
    rw [calls_answer s.world r who, h.history, List.map_append, List.append_assoc]
  case blocks =>
    refine Blocks.of_subset ?_ hback
    have honce : (granted.map (·.1)).Nodup := by
      have honce := h.once
      rw [List.map_append] at honce
      exact honce.of_append_left
    cases hcall : r.call? with
    | none =>
      show Blocks granted _ (s.calls ++ [])
      rw [List.append_nil]
      exact h.blocks
    | some c => exact h.blocks.called honce h.held h.agrees.shape hasking c

/-- Who waits was not let in before. -/
theorem Line.notMem_granted (h : Line settings w₀ s granted waiting holders) {e : Nat × Operation}
    (hmem : e ∈ waiting) : e.1 ∉ granted.map (·.1) := by
  intro hgranted
  have honce := h.once
  rw [List.map_append] at honce
  exact List.disjoint_of_nodup_append honce hgranted (List.mem_map_of_mem hmem)

/-- Who holds the lock stands among its holders once. -/
theorem Line.filter_holders {before after : List Holder} {holder : Holder}
    (h : Line settings w₀ s granted waiting (before ++ holder :: after)) :
    ((before ++ holder :: after).map Holder.entry).filter (·.1 ≠ holder.who) =
      (before ++ after).map Holder.entry := by
  have honce : ((before ++ holder :: after).map Holder.who).Nodup := by
    have honce := h.sound.once
    rw [h.lock, FairLock.entries, List.map_append, List.map_map] at honce
    exact honce.of_append_left
  have hrest : holder.who ∉ (before ++ after).map Holder.who := by
    have hperm : ((before ++ holder :: after).map Holder.who).Perm
        ((holder :: (before ++ after)).map Holder.who) := List.perm_middle.map _
    exact (List.nodup_cons.1 (hperm.nodup_iff.1 honce)).1
  have hkeep : ∀ other ∈ before ++ after, other.who ≠ holder.who := by
    intro other hmem heq
    exact hrest (heq ▸ List.mem_map_of_mem hmem)
  rw [List.map_append, List.map_cons, List.filter_append, List.filter_cons_of_neg (by simp [entry]),
    ← List.filter_append, ← List.map_append, List.filter_eq_self]
  intro e hmem
  obtain ⟨other, hother, rfl⟩ := List.mem_map.1 hmem
  exact decide_eq_true (hkeep other hother)

/-- A holder at its end gives the lock back, which is handed over to those at the front of the
queue. -/
theorem Line.leaves {before after : List Holder} {result : Result}
    (h : Line settings w₀ s granted waiting (before ++ ⟨who, op, .done result⟩ :: after)) :
    ∃ granted' waiting' holders',
      Line settings w₀
        { s with
          world := { s.world with lock := s.world.lock.release who }
          underway := Function.update s.underway who none
          ledger := (op, result) :: s.ledger
          ended := (who, result) :: s.ended }
        granted' waiting' holders' := by
  -- Who stays holds the lock as before, and those that are handed it begin their work.
  let leaving : Holder := ⟨who, op, .done result⟩
  have hleaving : leaving ∈ before ++ leaving :: after :=
    List.mem_append_right _ List.mem_cons_self
  have hback : ∀ holder ∈ before ++ after, holder ∈ before ++ leaving :: after := by
    intro holder hmem
    rcases List.mem_append.1 hmem with hmem | hmem
    · exact List.mem_append_left _ hmem
    · exact List.mem_append_right _ (List.mem_cons_of_mem _ hmem)
  obtain ⟨hagrees, hresult⟩ := h.agrees.leave
  obtain ⟨news, rest, rfl, hhandOver, hagrees'⟩ := hagrees.handOver waiting
    fun e hmem => h.access e (List.mem_append_right _ hmem)
  have hrelease : s.world.lock.release who =
      { holders := ((news.map (enters settings)).reverse ++ (before ++ after)).map entry
        queue := rest.map entryOf } := by
    rw [← hhandOver, FairLock.release, h.lock]
    exact congrArg (FairLock.handOver · _) h.filter_holders
  have hnews : ∀ e ∈ news, e.1 ∉ granted.map (·.1) :=
    fun e hmem => h.notMem_granted (List.mem_append_left _ hmem)
  have hline : granted ++ news ++ rest = granted ++ (news ++ rest) := List.append_assoc _ _ _
  refine ⟨granted ++ news, rest, (news.map (enters settings)).reverse ++ (before ++ after), ?_⟩
  refine {
    asked := ?asked
    access := ?access
    once := ?once
    lock := hrelease
    sound := h.sound.release
    held := ?held
    attended := ?attended
    stage := ?stage
    agrees := hagrees'.frame rfl rfl rfl
    results := ?results
    history := h.history
    blocks := ?blocks }
  case asked =>
    rw [hline]
    exact h.asked
  case access =>
    rw [hline]
    exact h.access
  case once =>
    rw [hline]
    exact h.once
  case held =>
    intro holder hholder
    rcases mem_entered.1 hholder with ⟨e, he, rfl⟩ | hholder
    · exact List.mem_append_right _ he
    · exact List.mem_append_left _ (h.held holder (hback holder hholder))
  case attended =>
    intro hnone
    have hqueue : (s.world.lock.release who).queue = [] := by
      refine FairLock.queue_handOver ?_
      show (s.world.lock.release who).holders = []
      rw [hrelease, hnone]
      rfl
    rw [hrelease] at hqueue
    exact List.map_eq_nil_iff.1 hqueue
  case stage =>
    refine stage_update (fun other hne => ?_) (.gone op result ?_ ?_ List.mem_cons_self)
    · refine (h.stage other).mono ?_ ?_ ?_ (List.subset_append_left _ _) ?_
        (List.subset_cons_self _ _)
      · rw [hline]
        exact id
      · intro op' hwaits
        rcases List.mem_append.1 hwaits with hwaits | hwaits
        · exact .inr (List.mem_append_left _ (List.mem_reverse.2 (List.mem_map_of_mem hwaits)))
        · exact .inl hwaits
      · intro op' body hholder
        refine List.mem_append_right _ ?_
        rcases List.mem_append.1 hholder with hholder | hholder
        · exact List.mem_append_left _ hholder
        · rcases List.mem_cons.1 hholder with heq | hholder
          · exact absurd (congrArg Holder.who heq) hne
          · exact List.mem_append_right _ hholder
      · intro hgranted hnone
        exact out_of_entered hnews hgranted fun holder hholder =>
          hnone holder (hback holder hholder)
    · exact List.mem_append_left _ (h.held leaving hleaving)
    · have hgranted : who ∈ granted.map (·.1) := List.mem_map_of_mem (h.held leaving hleaving)
      refine out_of_entered hnews hgranted fun holder hholder heq => ?_
      -- Nobody else among the holders has its number.
      have hentry : holder.entry ∈ ((before ++ leaving :: after).map entry).filter
          (·.1 ≠ leaving.who) := by
        rw [h.filter_holders]
        exact List.mem_map_of_mem hholder
      exact of_decide_eq_true (List.mem_filter.1 hentry).2 heq
  case results =>
    intro e hmem
    refine results_append granted news w₀ ?_
    rcases List.mem_cons.1 hmem with rfl | hmem
    · exact hresult
    · exact h.results e hmem
  case blocks =>
    have hblocks : Blocks granted (before ++ after) s.calls :=
      h.blocks.of_subset fun holder hholder => ⟨holder, hback holder hholder, rfl, rfl⟩
    exact hblocks.grant news hnews

/-! ### Moves -/

/-- Work under the lock goes on by its next request, unless a call of it is held back. -/
theorem Line.worksOn (h : Line settings w₀ s granted waiting holders) {body : Transaction Result}
    (hmem : ⟨who, op, body⟩ ∈ holders)
    (hwho : s.underway who = some ⟨op, thenUnlock body⟩) :
    ∃ granted' waiting' holders',
      Line settings w₀ (s.step settings (.goesOn who)) granted' waiting' holders' := by
  have hasked : who ∈ s.asked.map (·.1) := h.mem_asked hmem
  obtain ⟨before, after, rfl⟩ := List.append_of_mem hmem
  cases body with
  | done result =>
    have hstep : s.step settings (.goesOn who) =
        (s.noteAsked who op .unlock).attempt who op .unlock fun _ => .done result := by
      simp only [Chronicle.step, hwho, thenUnlock_done]
    rw [hstep, Chronicle.noteAsked_of_mem hasked, Chronicle.attempt_unlock]
    exact h.leaves
  | ask r next =>
    have hstep : s.step settings (.goesOn who) =
        (s.noteAsked who op r).attempt who op r fun answer => thenUnlock (next answer) := by
      simp only [Chronicle.step, hwho, thenUnlock_ask]
    rw [hstep, Chronicle.noteAsked_of_mem hasked]
    have hlocking := h.agrees.isLocking hmem
    rcases hattempt : s.world.attempt who r with ⟨_ | answer, w⟩
    · -- Its call is held back.
      rw [Chronicle.attempt_of_waits hattempt]
      rcases Session.attempt_waits hattempt with rfl | ⟨access, rfl, -⟩
      · exact ⟨_, _, _, h⟩
      · cases hlocking
    · rw [Chronicle.attempt_of_answer hattempt rfl]
      have hanswers := h.answers
      rw [World.answer_of_attempt hlocking hattempt] at hanswers
      exact ⟨_, _, _, hanswers⟩

/-- An operation asks for the lock first. -/
theorem step_of_transaction (hop : op.access.isSome)
    (hwho : s.underway who = some ⟨op, op.transaction settings⟩) :
    s.step settings (.goesOn who) =
      (s.noteAsked who op (.lock op.mode)).attempt who op (.lock op.mode)
        fun _ => thenUnlock (op.work settings) := by
  obtain ⟨access, haccess⟩ := Option.isSome_iff_exists.1 hop
  obtain rfl : op.mode = access := by
    rw [Operation.mode, haccess]
    rfl
  rw [Operation.transaction_of_access haccess] at hwho
  simp only [Chronicle.step, hwho]

/-- Who goes on keeps the line, wherever it stands. -/
theorem Line.goesOn (h : Line settings w₀ s granted waiting holders) (who : Nat) :
    ∃ granted' waiting' holders',
      Line settings w₀ (s.step settings (.goesOn who)) granted' waiting' holders' := by
  have hstage := h.stage who
  generalize hwho : s.underway who = pending at hstage
  cases hstage with
  | absent => exact ⟨_, _, _, by simpa only [Chronicle.step, hwho] using h⟩
  | begun op hop hnew =>
    rw [step_of_transaction hop hwho]
    exact h.asks hop hwho hnew
  | queued op hmem =>
    have hop := h.access _ (List.mem_append_right _ hmem)
    rw [step_of_transaction hop hwho, h.asksAgain hmem]
    exact ⟨_, _, _, h⟩
  | admitted op hmem =>
    have hop : op.access.isSome := h.access _ (List.mem_append_left _ (h.held _ hmem))
    rw [step_of_transaction hop hwho, h.entered hmem]
    exact ⟨_, _, _, h.restage (.inside op _ hmem)⟩
  | inside op body hmem => exact h.worksOn hmem hwho
  | gone => exact ⟨_, _, _, by simpa only [Chronicle.step, hwho] using h⟩

/-- Every move keeps the line. -/
theorem Line.step (h : Line settings w₀ s granted waiting holders) (move : Move) :
    ∃ granted' waiting' holders',
      Line settings w₀ (s.step settings move) granted' waiting' holders' := by
  cases move with
  | begins who op =>
    simp only [Chronicle.step]
    split
    · next hnew =>
      obtain ⟨⟨hop, -⟩, hnew⟩ := by simpa only [Bool.and_eq_true] using hnew
      have hnew' : who ∉ s.asked.map (·.1) := by
        intro hmem
        obtain ⟨e, he, rfl⟩ := List.mem_map.1 hmem
        have hany : s.asked.any (·.1 = e.1) = true :=
          List.any_eq_true.2 ⟨e, he, decide_eq_true rfl⟩
        rw [hany] at hnew
        cases hnew
      exact ⟨_, _, _, h.begins hop hnew'⟩
    · exact ⟨_, _, _, h⟩
  | goesOn who => exact h.goesOn who
  | gates gated => exact ⟨_, _, _, h.gates gated⟩

end Line

end Caretaker.Crew
