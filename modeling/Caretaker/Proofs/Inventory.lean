import Mathlib.Algebra.Group.Nat.Defs
import Mathlib.Data.List.Nodup
import Caretaker.Proofs.Names

/-!
# An inventory of containers in memory

Memory that began empty stays in order, whatever is called and whatever happens to it from outside:
a container is found under its own id, is what its descriptor says, and shares its name with no
other one.  An id is given once.  This follows from one fact about what can happen: a container is
started, or no id is given and every container was there before, perhaps in another state.

Main definitions:

- `Fails`: the faults of a call.
- `Step`, `run`: what can happen to memory.
- `ids`: the ids that were given meanwhile, in order.
- `InOrder`: the rule that every container keeps.

Main statements:

- `failed_call_records_only`: a call that fails is remembered and changes nothing else.
- `starts_or_keeps`: what a step does.
- `InOrder.run`: memory stays in order.
- `run_inventory`: what memory holds after any steps, and which ids were given.
-/

namespace Caretaker

namespace Container.Memory

variable {m m' : Memory} {name id : String} {c : Call} {fault : Fault}

/-! ## Faults -/

/-- The faults of a call: it was told to fail, or a container that it needs is not there. -/
inductive Fails (m : Memory) (c : Call) : Fault → Prop where
  | told (h : c.operation ∈ m.failing) : Fails m c (toldToFail c.operation)
  | missing (id : String) (hneeds : c = .restart id ∨ c = .terminate id ∨ c = .inspect id)
      (hwilling : c.operation ∉ m.failing) (hnone : m.containers.get? id = none) :
      Fails m c (.notFound id)

/-- A call that needs a container fails where it is not there. -/
theorem serve_of_none (hneeds : c = .restart id ∨ c = .terminate id ∨ c = .inspect id)
    (hnone : m.containers.get? id = none) :
    m.serve c = { answer := .error (.notFound id), state := m } := by
  rcases hneeds with rfl | rfl | rfl <;> simp only [serve, hnone]

/-- A call that is answered at all fails only for want of a container. -/
theorem missing_of_serve (h : (m.serve c).answer = .error fault) :
    ∃ id, (c = .restart id ∨ c = .terminate id ∨ c = .inspect id) ∧
      m.containers.get? id = none ∧ fault = .notFound id := by
  cases c with
  | restart id =>
    simp only [serve] at h
    split at h
    · next hnone => exact ⟨id, .inl rfl, hnone, (Except.error.inj h).symm⟩
    · cases h
  | terminate id =>
    simp only [serve] at h
    split at h
    · next hnone => exact ⟨id, .inr (.inl rfl), hnone, (Except.error.inj h).symm⟩
    · cases h
  | inspect id =>
    simp only [serve] at h
    split at h
    · next hnone => exact ⟨id, .inr (.inr rfl), hnone, (Except.error.inj h).symm⟩
    · cases h
  | _ => cases h

/-- A call that fails does nothing else. -/
theorem Fails.perform_eq (h : Fails m c fault) :
    m.perform c = { answer := .error fault, state := m.record c } := by
  cases h with
  | told hfails => exact perform_of_mem hfails
  | missing id hneeds hwilling hnone =>
    rw [perform_of_notMem hwilling]
    exact serve_of_none hneeds hnone

theorem fails_iff : (m.perform c).answer = .error fault ↔ Fails m c fault := by
  constructor
  · intro h
    by_cases hfails : c.operation ∈ m.failing
    · rw [perform_of_mem hfails] at h
      rw [← Except.error.inj h]
      exact .told hfails
    · rw [perform_of_notMem hfails] at h
      obtain ⟨id, hneeds, hnone, rfl⟩ := missing_of_serve h
      exact .missing id hneeds hfails hnone
  · intro h
    rw [h.perform_eq]

/-- An operation that was told to fail has a fault of its own. -/
theorem fails_toldToFail_iff : Fails m c (toldToFail c.operation) ↔ c.operation ∈ m.failing := by
  constructor
  · generalize hfault : toldToFail c.operation = fault
    intro h
    cases h with
    | told hfails => exact hfails
    | missing => cases hfault
  · exact .told

/-- Every call is remembered behind those before it. -/
theorem calls_perform (c : Call) (m : Memory) :
    (m.perform c).state.calls = m.calls ++ [⟨c.operation, c.target⟩] := by
  have hrecord : (m.record c).calls = m.calls ++ [⟨c.operation, c.target⟩] := List.reverse_cons
  have h := becomes_perform c m
  generalize (m.perform c).state = m' at h
  cases h <;> exact hrecord

/-- Every call is remembered, with its kind and what it was about, whether it succeeds or not.  It
fails if its operation was told to, and otherwise just for want of a container it needs; and a call
that fails has no other effect than to be remembered. -/
theorem failed_call_records_only (c : Call) (m : Memory) :
    (m.perform c).state.calls = m.calls ++ [⟨c.operation, c.target⟩] ∧
    ((m.perform c).answer = .error (toldToFail c.operation) ↔ c.operation ∈ m.failing) ∧
    ∀ fault,
      ((m.perform c).answer = .error fault ↔ Fails m c fault) ∧
      ((m.perform c).answer = .error fault ↔
        m.perform c =
          { answer := .error fault
            state := { m with history := ⟨c.operation, c.target⟩ :: m.history } }) := by
  refine ⟨calls_perform c m, fails_iff.trans fails_toldToFail_iff, fun fault => ⟨fails_iff, ?_⟩⟩
  constructor
  · intro h
    exact (fails_iff.1 h).perform_eq
  · intro h
    rw [h]

/-! ## What memory keeps -/

/-- Whether every container was there before, perhaps in another state. -/
def Keeps (m m' : Memory) : Prop :=
  ∀ id c', m'.containers.get? id = some c' →
    ∃ c, m.containers.get? id = some c ∧ ∃ state, c' = c.inState state

theorem keeps_of_eq (h : m'.containers = m.containers) : Keeps m m' := by
  intro id c' hc'
  rw [h] at hc'
  exact ⟨c', hc', c'.info.state, rfl⟩

theorem keeps_setState (id : String) (state : ContainerState) (m : Memory) :
    Keeps m (m.setState id state) := by
  intro other c' hc'
  rw [get?_setState] at hc'
  split at hc'
  · obtain ⟨c, hc, rfl⟩ := Option.map_eq_some_iff.1 hc'
    exact ⟨c, hc, state, rfl⟩
  · exact ⟨c', hc', c'.info.state, rfl⟩

theorem keeps_pruned (m : Memory) : Keeps m m.pruned := by
  intro id c' hc'
  rw [get?_pruned] at hc'
  exact ⟨c', (Option.filter_eq_some_iff.1 hc').1, c'.info.state, rfl⟩

/-- A call that starts nothing keeps what is there, and gives no id. -/
theorem keeps_perform (h : ∀ descriptor, c = .start descriptor → .start ∈ m.failing) :
    Keeps m (m.perform c).state ∧ (m.perform c).state.started = m.started := by
  by_cases hfails : c.operation ∈ m.failing
  · rw [perform_of_mem hfails]
    exact ⟨keeps_of_eq rfl, rfl⟩
  · have hbecomes := becomes_perform c m
    generalize (m.perform c).state = m' at hbecomes
    cases hbecomes with
    | unchanged => exact ⟨keeps_of_eq rfl, rfl⟩
    | started descriptor => exact absurd (h descriptor rfl) hfails
    | moved c id state => exact ⟨keeps_setState id state (m.record c), rfl⟩
    | pruned => exact ⟨keeps_pruned (m.record .prune), rfl⟩
    | nuked => exact ⟨fun _ _ => nofun, rfl⟩

/-! ## Steps -/

/-- What can happen to memory: a call, or a change from outside. -/
inductive Step where
  | calls (call : Call)
  | fails (operation : Operation)
  | recovers (operation : Operation)
  | puts (id : String) (state : ContainerState)
  | forgets
deriving DecidableEq, Repr

/-- Memory after a step. -/
def Step.take (m : Memory) : Step → Memory
  | calls call => (m.perform call).state
  | fails operation => m.fail operation
  | recovers operation => m.recover operation
  | puts id state => m.setState id state
  | forgets => m.clearCalls

/-- The id that a step gives, if it starts a container. -/
def Step.id? (m : Memory) : Step → Option String
  | calls (.start descriptor) => (m.perform (.start descriptor)).answer.toOption.map Handle.id
  | _ => none

/-- Whether a step asks for a container to be started. -/
def Step.isStart : Step → Bool
  | calls (.start _) => true
  | _ => false

/-- Memory after some steps. -/
def run (steps : List Step) (m : Memory) : Memory := steps.foldl Step.take m

/-- The ids that some steps give, in order. -/
def ids : List Step → Memory → List String
  | [], _ => []
  | step :: steps, m => (step.id? m).toList ++ ids steps (step.take m)

variable {step : Step} {steps : List Step}

@[simp] theorem run_cons (step : Step) (steps : List Step) (m : Memory) :
    run (step :: steps) m = run steps (step.take m) := rfl

/-- A step is a call or something from outside. -/
theorem meddles_take (step : Step) (m : Memory) : Meddles m (step.take m) := by
  cases step with
  | calls call => exact .calls call
  | fails operation => exact .fails operation
  | recovers operation => exact .recovers operation
  | puts id state => exact .finds id state
  | forgets => exact .forgets

@[simp] theorem containers_fail (operation : Operation) (m : Memory) :
    (m.fail operation).containers = m.containers ∧ (m.fail operation).started = m.started := by
  unfold fail
  split <;> exact ⟨rfl, rfl⟩

/-- A step that is no start gives no id. -/
theorem id?_eq_none (h : ∀ descriptor, step = .calls (.start descriptor) → .start ∈ m.failing) :
    step.id? m = none := by
  unfold Step.id?
  split
  · next descriptor =>
    rw [perform_of_mem (h descriptor rfl)]
    rfl
  · rfl

/-- A step starts a container, or it gives no id and keeps what is there. -/
theorem starts_or_keeps (step : Step) (m : Memory) :
    (∃ descriptor, step = .calls (.start descriptor) ∧ .start ∉ m.failing) ∨
      step.id? m = none ∧ (step.take m).started = m.started ∧ Keeps m (step.take m) := by
  by_cases hstarts : ∃ descriptor, step = .calls (.start descriptor) ∧ .start ∉ m.failing
  · exact .inl hstarts
  · have hfails : ∀ descriptor, step = .calls (.start descriptor) → .start ∈ m.failing := by
      intro descriptor hstep
      exact Decidable.byContradiction fun hwilling => hstarts ⟨descriptor, hstep, hwilling⟩
    refine .inr ⟨id?_eq_none hfails, ?_⟩
    cases step with
    | calls call =>
      have hcall := keeps_perform (m := m) (c := call) fun descriptor heq =>
        hfails descriptor (by rw [heq])
      exact ⟨hcall.2, hcall.1⟩
    | fails operation =>
      exact ⟨(containers_fail operation m).2, keeps_of_eq (containers_fail operation m).1⟩
    | recovers => exact ⟨rfl, keeps_of_eq rfl⟩
    | puts id state => exact ⟨rfl, keeps_setState id state m⟩
    | forgets => exact ⟨rfl, keeps_of_eq rfl⟩

/-- What is started gets the next id, and the one after it becomes the next. -/
theorem take_start (descriptor : Descriptor) (h : .start ∉ m.failing) :
    Step.id? m (.calls (.start descriptor)) = some (idOf m.started) ∧
      (Step.take m (.calls (.start descriptor))).started = m.started + 1 := by
  obtain ⟨hstate, hanswer⟩ := @perform_start m descriptor h
  constructor
  · rw [Step.id?, hanswer]
    rfl
  · rw [Step.take, hstate]
    rfl

/-! ## Containers in order -/

/-- Whether a container is under its own id and is what its descriptor says. -/
structure Labelled (id : String) (c : Stored) : Prop where
  id : c.info.id = id
  name : c.info.name = c.descriptor.name
  image : c.info.image = c.descriptor.image

/-- Whether memory is in order: ids were given, containers are labelled, and names are unique. -/
structure InOrder (m : Memory) : Prop where
  counted : Counted m
  labelled : ∀ id c, m.containers.get? id = some c → Labelled id c
  unique : ∀ id id' name, Bears name id m → Bears name id' m → id = id'

theorem inOrder_empty : InOrder {} where
  counted id hid := by cases hid
  labelled id c hc := by cases hc
  unique id id' name h := by
    obtain ⟨c, hc, -⟩ := h
    cases hc

/-- The state of a container is on no label. -/
theorem Labelled.inState {c : Stored} (h : Labelled id c) (state : ContainerState) :
    Labelled id (c.inState state) := ⟨h.id, h.name, h.image⟩

theorem Bears.of_keeps (h : Bears name id m') (hkeeps : Keeps m m') : Bears name id m := by
  obtain ⟨c', hc', rfl⟩ := h
  obtain ⟨c, hc, state, rfl⟩ := hkeeps id c' hc'
  exact ⟨c, hc, rfl⟩

/-- What keeps the containers keeps them in order. -/
theorem InOrder.of_keeps (h : InOrder m) (hkeeps : Keeps m m') (hcounted : Counted m') :
    InOrder m' where
  counted := hcounted
  labelled id c' hc' := by
    obtain ⟨c, hc, state, rfl⟩ := hkeeps id c' hc'
    exact (h.labelled id c hc).inState state
  unique id id' name hid hid' := h.unique id id' name (hid.of_keeps hkeeps) (hid'.of_keeps hkeeps)

/-- What is started is labelled, and takes the place of what had its name. -/
theorem InOrder.start {descriptor : Descriptor} (h : InOrder m) (hstarts : .start ∉ m.failing) :
    InOrder (m.perform (.start descriptor)).state where
  counted := h.counted.perform _
  labelled id c hc := by
    rcases (get?_perform_start h.counted hstarts c).1 hc with ⟨rfl, rfl⟩ | ⟨hc, -⟩
    · exact ⟨rfl, rfl, rfl⟩
    · exact h.labelled id c hc
  unique id id' name hid hid' := by
    rw [bears_start h.counted hstarts] at hid hid'
    split at hid
    · next hname =>
      rw [if_pos hname] at hid'
      rw [hid, hid']
    · next hname =>
      rw [if_neg hname] at hid'
      exact h.unique id id' name hid hid'

theorem InOrder.take (h : InOrder m) (step : Step) : InOrder (step.take m) := by
  rcases starts_or_keeps step m with ⟨descriptor, rfl, hstarts⟩ | ⟨-, -, hkeeps⟩
  · exact h.start hstarts
  · exact h.of_keeps hkeeps (h.counted.meddles (meddles_take step m))

/-- Memory stays in order. -/
theorem InOrder.run (h : InOrder m) (steps : List Step) : InOrder (run steps m) := by
  induction steps generalizing m with
  | nil => exact h
  | cons step steps ih => exact ih (h.take step)

/-- In memory that is in order, the descriptor of a name is that of the only container with it. -/
theorem InOrder.descriptorOf?_eq_some_iff (h : InOrder m) {descriptor : Descriptor} :
    m.descriptorOf? name = some descriptor ↔
      ∃ id c, m.containers.get? id = some c ∧ c.info.name = name ∧ c.descriptor = descriptor ∧
        ∀ other, Bears name other m → other = id := by
  unfold descriptorOf?
  constructor
  · intro hfound
    obtain ⟨⟨id, c⟩, hentry, rfl⟩ := Option.map_eq_some_iff.1 hfound
    have hc : m.containers.get? id = some c :=
      Dictionary.mem_entries_iff.1 (List.mem_of_find?_eq_some hentry)
    have hname : c.info.name = name := by simpa using List.find?_some hentry
    refine ⟨id, c, hc, hname, rfl, fun other hother => ?_⟩
    exact h.unique other id name hother ⟨c, hc, hname⟩
  · rintro ⟨id, c, hc, hname, rfl, honly⟩
    cases hentry : m.containers.entries.find? (·.2.info.name == name) with
    | none =>
      have hmem : (id, c) ∈ m.containers.entries := Dictionary.mem_entries_iff.2 hc
      have habsent := List.find?_eq_none.1 hentry (id, c) hmem
      exact absurd (beq_iff_eq.2 hname) habsent
    | some entry =>
      obtain ⟨other, c'⟩ := entry
      have hc' : m.containers.get? other = some c' :=
        Dictionary.mem_entries_iff.1 (List.mem_of_find?_eq_some hentry)
      have hname' : c'.info.name = name := by simpa using List.find?_some hentry
      -- The first container with the name is the only one.
      have hsame : other = id := honly other ⟨c', hc', hname'⟩
      subst hsame
      rw [Option.some.inj (hc'.symm.trans hc)]
      rfl

/-! ## Ids that were given -/

/-- The ids that are given are numbered one by one from the next. -/
theorem ids_eq (steps : List Step) (m : Memory) :
    ids steps m = (List.range' m.started (ids steps m).length).map idOf ∧
      (run steps m).started = m.started + (ids steps m).length := by
  -- The memory changes with each step, and with it the number from which the rest counts.
  induction steps generalizing m with
  | nil => exact ⟨rfl, rfl⟩
  | cons step steps ih =>
    obtain ⟨hids, hstarted⟩ := ih (step.take m)
    rw [run_cons, hstarted]
    rcases starts_or_keeps step m with ⟨descriptor, rfl, hstarts⟩ | ⟨hnone, hcount, -⟩
    · obtain ⟨hid, hcount⟩ := take_start descriptor hstarts
      rw [hcount] at hids ⊢
      rw [ids, hid, Option.toList_some, List.singleton_append, List.length_cons,
        List.range'_succ, List.map_cons, ← hids]
      exact ⟨rfl, by omega⟩
    · rw [hcount] at hids ⊢
      rw [ids, hnone, Option.toList_none, List.nil_append]
      exact ⟨hids, rfl⟩

/-- Only what asks for a start gives an id. -/
theorem length_ids_le (steps : List Step) (m : Memory) :
    (ids steps m).length ≤ steps.countP Step.isStart := by
  induction steps generalizing m with
  | nil => exact Nat.le_refl 0
  | cons step steps ih =>
    have hrest := ih (step.take m)
    rw [ids, List.length_append, List.countP_cons]
    rcases starts_or_keeps step m with ⟨descriptor, rfl, hstarts⟩ | ⟨hnone, -, -⟩
    · rw [(take_start descriptor hstarts).1]
      simp only [Step.isStart, Option.toList_some, List.length_singleton, if_true]
      omega
    · rw [hnone, Option.toList_none, List.length_nil]
      omega

/-- No id is given twice. -/
theorem nodup_ids (steps : List Step) (m : Memory) : (ids steps m).Nodup := by
  rw [(ids_eq steps m).1]
  exact List.Nodup.map idOf_injective List.nodup_range'

/-- Whatever happens to memory that begins empty, with fewer than `2 ^ 64` calls to start a
container: each container is found under its id and has the name and the image of its descriptor,
and it shares its name with no other one.  So the descriptor of a name is that of the only container
with it.  The ids that are given are all different, also where a container is long gone, and a
counter of 64 bits counts them. -/
theorem run_inventory {steps : List Step} (h : steps.countP Step.isStart < 2 ^ 64) :
    (∀ id c, (run steps {}).containers.get? id = some c →
      c.info.id = id ∧ c.info.name = c.descriptor.name ∧ c.info.image = c.descriptor.image) ∧
    (∀ id id' c c', (run steps {}).containers.get? id = some c →
      (run steps {}).containers.get? id' = some c' → c.info.name = c'.info.name → id = id') ∧
    (∀ name descriptor, (run steps {}).descriptorOf? name = some descriptor ↔
      ∃ id c, (run steps {}).containers.get? id = some c ∧ c.info.name = name ∧
        c.descriptor = descriptor ∧ ∀ other, Bears name other (run steps {}) → other = id) ∧
    (ids steps {}).Nodup ∧
    ids steps {} =
      (List.range (run steps {}).started).map fun n => idOf (UInt64.ofNat n).toNat := by
  have horder : InOrder (run steps {}) := inOrder_empty.run steps
  refine ⟨fun id c hc => ?_, fun id id' c c' hc hc' hname => ?_, fun name descriptor => ?_,
    nodup_ids steps {}, ?_⟩
  · have hlabel := horder.labelled id c hc
    exact ⟨hlabel.id, hlabel.name, hlabel.image⟩
  · exact horder.unique id id' c'.info.name ⟨c, hc, hname⟩ ⟨c', hc', rfl⟩
  · exact horder.descriptorOf?_eq_some_iff
  · obtain ⟨hids, hstarted⟩ := ids_eq steps {}
    have hlength : (run steps {}).started = (ids steps {}).length := by
      rw [hstarted]
      exact Nat.zero_add _
    have hle := length_ids_le steps {}
    rw [hlength, List.range_eq_range']
    refine hids.trans (List.map_congr_left fun n hn => ?_)
    -- No number is so large that the counter would start again.
    have hbound : n < 2 ^ 64 := by
      have hrange := (List.mem_range'_1.1 hn).2
      have hzero : ({} : Memory).started = 0 := rfl
      omega
    rw [UInt64.toNat_ofNat_of_lt' hbound]

/-- A container is replaced by one of its name, then pruned, and the next one gets the next id. -/
theorem inventory_of_replacements :
    List.countP Step.isStart
        [.calls (.start { name := "node" }), .calls (.start { name := "node" }),
          .calls (.stop (idOf 1)), .calls .prune, .calls (.start { name := "proxy" })] < 2 ^ 64 ∧
      ids [.calls (.start { name := "node" }), .calls (.start { name := "node" }),
          .calls (.stop (idOf 1)), .calls .prune, .calls (.start { name := "proxy" })] {} =
        [idOf 0, idOf 1, idOf 2] := by
  have hfew : List.countP Step.isStart
      [.calls (.start { name := "node" }), .calls (.start { name := "node" }),
        .calls (.stop (idOf 1)), .calls .prune, .calls (.start { name := "proxy" })] < 2 ^ 64 := by
    decide
  exact ⟨hfew, (run_inventory hfew).2.2.2.2⟩

end Container.Memory
end Caretaker
