import Caretaker.Crew.World
import Caretaker.Proofs.Memory
import Caretaker.Proofs.Work

/-!
# Work of readers commutes

Readers share the lock, so that their work mixes.  They look at slots and ask containers to stop,
and it makes no difference in which order they do: each finds what it would have found alone, and
the containers end up the same.

What decides on answers is the gist of a world: its roster, the copy of it, and the containers in
memory.  Neither the lock nor the log nor the history of the calls does.

Main statements:

- `World.answer_congr`, `World.run_congr`: worlds of one gist answer alike.
- `World.run_answer`: a request of a reader may come before or after the work of another reader.
-/

namespace Caretaker

namespace Container.Memory

variable {m : Memory}

/-! ## Memory without its history -/

@[simp] theorem clearCalls_record (c : Call) : (m.record c).clearCalls = m.clearCalls := rfl

theorem serve_clearCalls (c : Call) (m : Memory) :
    (m.clearCalls.serve c).answer = (m.serve c).answer ∧
      (m.clearCalls.serve c).state = (m.serve c).state.clearCalls := by
  cases c with
  | restart id =>
    have hget : m.clearCalls.containers.get? id = m.containers.get? id := rfl
    simp only [serve, hget]
    split <;> exact ⟨rfl, rfl⟩
  | terminate id =>
    have hget : m.clearCalls.containers.get? id = m.containers.get? id := rfl
    simp only [serve, hget]
    split <;> exact ⟨rfl, rfl⟩
  | inspect id =>
    have hget : m.clearCalls.containers.get? id = m.containers.get? id := rfl
    simp only [serve, hget]
    split <;> exact ⟨rfl, rfl⟩
  | _ => exact ⟨rfl, rfl⟩

/-- Neither the answer to a call nor what becomes of the containers depends on the calls before. -/
theorem perform_clearCalls (c : Call) (m : Memory) :
    (m.clearCalls.perform c).answer = (m.perform c).answer ∧
      (m.clearCalls.perform c).state.clearCalls = (m.perform c).state.clearCalls := by
  by_cases hfails : c.operation ∈ m.failing
  · have hcleared : c.operation ∈ m.clearCalls.failing := hfails
    rw [perform_of_mem hfails, perform_of_mem hcleared]
    exact ⟨rfl, rfl⟩
  · have hcleared : c.operation ∉ m.clearCalls.failing := hfails
    rw [perform_of_notMem hfails, perform_of_notMem hcleared]
    -- Both are served as memory without any history.
    have hserve := serve_clearCalls c (m.record c)
    have hserve' := serve_clearCalls c (m.clearCalls.record c)
    rw [← hserve.1, ← hserve.2, ← hserve'.1, ← hserve'.2]
    exact ⟨rfl, rfl⟩

theorem modify_comm {α : Type} (first second : String) (change : α → α) (d : Dictionary α) :
    (d.modify first change).modify second change =
      (d.modify second change).modify first change := by
  have hentries : ((d.modify first change).modify second change).entries =
      ((d.modify second change).modify first change).entries := by
    simp only [Dictionary.modify, List.map_map]
    refine List.map_congr_left fun e _ => ?_
    simp only [Function.comp_apply, Prod.mk.injEq, true_and]
    generalize (e.1 == first) = isFirst
    generalize (e.1 == second) = isSecond
    cases isFirst <;> cases isSecond <;> rfl
  generalize (d.modify first change).modify second change = a at hentries
  generalize (d.modify second change).modify first change = b at hentries
  cases a
  cases b
  cases hentries
  rfl

theorem answer_stop (id : String) (m : Memory) :
    (m.perform (.stop id)).answer =
      if .stop ∈ m.failing then .error (toldToFail .stop) else .ok () := by
  by_cases hfails : Operation.stop ∈ m.failing
  · rw [perform_of_mem (by exact hfails), if_pos hfails]
    rfl
  · rw [perform_of_notMem (by exact hfails), if_neg hfails]
    rfl

theorem state_stop (id : String) (m : Memory) :
    (m.perform (.stop id)).state.clearCalls =
      if .stop ∈ m.failing then m.clearCalls else m.clearCalls.setState id .exited := by
  by_cases hfails : Operation.stop ∈ m.failing
  · rw [perform_of_mem (by exact hfails), if_pos hfails]
    rfl
  · rw [perform_of_notMem (by exact hfails), if_neg hfails]
    rfl

/-- The order in which two containers are asked to stop makes no difference. -/
theorem perform_stop_comm (first second : String) (m : Memory) :
    ((m.perform (.stop first)).state.perform (.stop second)).answer =
        (m.perform (.stop second)).answer ∧
      ((m.perform (.stop first)).state.perform (.stop second)).state.clearCalls =
        ((m.perform (.stop second)).state.perform (.stop first)).state.clearCalls := by
  refine ⟨?_, ?_⟩
  · rw [answer_stop, answer_stop, failing_perform]
  · rw [state_stop, state_stop, state_stop, state_stop, failing_perform, failing_perform]
    split
    · rfl
    · simp only [setState, modify_comm first second]

/-- Every call is remembered. -/
theorem history_perform (c : Call) (m : Memory) :
    (m.perform c).state.history = ⟨c.operation, c.target⟩ :: m.history := by
  have h := becomes_perform c m
  generalize (m.perform c).state = m' at h
  cases h <;> rfl

end Container.Memory

namespace Crew

open Container (Memory)
open Script

/-! ## The gist of a world -/

namespace World

variable {w w' : World Memory}

/-- What decides on answers. -/
def gist (w : World Memory) : Roster × Roster × Memory :=
  (w.roster, w.lastKnown, w.backend.clearCalls)

theorem gist_eq_iff : w.gist = w'.gist ↔
    w.roster = w'.roster ∧ w.lastKnown = w'.lastKnown ∧
      w.backend.clearCalls = w'.backend.clearCalls := by
  simp [gist]

/-- Worlds of one gist answer alike, and have one gist again. -/
theorem answer_congr (h : w.gist = w'.gist) (r : Request) :
    (w.answer r).1 = (w'.answer r).1 ∧ (w.answer r).2.gist = (w'.answer r).2.gist := by
  obtain ⟨hroster, hcopy, hbackend⟩ := gist_eq_iff.1 h
  cases r with
  | call c =>
    have hleft := Memory.perform_clearCalls c w.backend
    have hright := Memory.perform_clearCalls c w'.backend
    rw [hbackend] at hleft
    refine ⟨hleft.1.symm.trans hright.1, gist_eq_iff.2 ⟨hroster, hcopy, ?_⟩⟩
    exact hleft.2.symm.trans hright.2
  | slot role =>
    refine ⟨?_, h⟩
    show w.roster.slot role = w'.roster.slot role
    rw [hroster]
  | setSlot role slot =>
    refine ⟨rfl, gist_eq_iff.2 ⟨?_, hcopy, hbackend⟩⟩
    show w.roster.put role slot = w'.roster.put role slot
    rw [hroster]
  | publish role =>
    refine ⟨rfl, gist_eq_iff.2 ⟨hroster, ?_, hbackend⟩⟩
    show w.lastKnown.put role (w.roster.slot role) = w'.lastKnown.put role (w'.roster.slot role)
    rw [hroster, hcopy]
  | lastKnown => exact ⟨hcopy, h⟩
  | lock => exact ⟨rfl, h⟩
  | tryLock => exact ⟨rfl, h⟩
  | unlock => exact ⟨rfl, h⟩
  | log => exact ⟨rfl, h⟩

/-- A request comes first in the run of its script. -/
theorem run_ask {α : Type} (r : Request) (next : r.Answer → Transaction α) (w : World Memory) :
    Transaction.run (Script.ask (S := signature) r next) w =
      (Transaction.run (next (w.answer r).1) (w.answer r).2) := rfl

theorem run_congr {α : Type} (h : w.gist = w'.gist) (t : Transaction α) :
    (t.run w).1 = (t.run w').1 ∧ (t.run w).2.gist = (t.run w').2.gist := by
  induction t generalizing w w' with
  | done value => exact ⟨rfl, h⟩
  | ask r next ih =>
    obtain ⟨hanswer, hgist⟩ := answer_congr h r
    rw [run_ask, run_ask, hanswer]
    exact ih (w'.answer r).1 hgist

end World

/-! ## What readers ask for -/

/-- Whether a request looks at what is known, or asks a container to stop. -/
def Request.Reads : Request → Prop
  | .call (.stop _) => True
  | .call _ => False
  | .log _ | .slot _ | .lastKnown => True
  | .lock _ | .tryLock | .unlock | .setSlot _ _ | .publish _ => False

theorem reads_stopLocked (role : Role) :
    (stopLocked role).Only (S := signature) Request.Reads := by
  unfold stopLocked
  refine .bind ⟨trivial, fun slot => trivial⟩ fun slot => ?_
  cases slot.container with
  | none => trivial
  | some handle =>
    refine .bind ⟨trivial, fun _ => trivial⟩ fun _ => ?_
    refine .bind ⟨trivial, fun answer => trivial⟩ fun answer => ?_
    cases answer with
    | error cause => exact ⟨trivial, fun _ => trivial⟩
    | ok => trivial

/-- The work of an operation that shares the lock only reads. -/
theorem Operation.reads_work {op : Operation} (settings : Settings)
    (h : op.access = some .shared) :
    (op.work settings).Only (S := signature) Request.Reads := by
  cases op with
  | stopAll =>
    exact .map _ (.bind (reads_stopLocked .updater) fun _ => reads_stopLocked .supervisor)
  | snapshot => exact .map _ ⟨trivial, fun _ => ⟨trivial, fun _ => trivial⟩⟩
  | _ => cases h

/-! ## Readers mix -/

namespace World

variable {w : World Memory} {r : Request}

/-- What readers ask for is a stop of a container, or leaves the gist alone. -/
theorem stop_or_still (hr : r.Reads) :
    (∃ id, r = .call (.stop id)) ∨
      (∀ c, r ≠ .call c) ∧ ∀ w : World Memory, (w.answer r).2.gist = w.gist := by
  cases r with
  | call c =>
    cases c with
    | stop id => exact .inl ⟨id, rfl⟩
    | _ => exact hr.elim
  | log => exact .inr ⟨nofun, fun _ => rfl⟩
  | slot => exact .inr ⟨nofun, fun _ => rfl⟩
  | lastKnown => exact .inr ⟨nofun, fun _ => rfl⟩
  | lock => exact hr.elim
  | tryLock => exact hr.elim
  | unlock => exact hr.elim
  | setSlot => exact hr.elim
  | publish => exact hr.elim

/-- What readers ask for one after the other may change places. -/
theorem answer_answer {first second : Request} (hfirst : first.Reads) (hsecond : second.Reads)
    (w : World Memory) :
    ((w.answer first).2.answer second).1 = (w.answer second).1 ∧
      ((w.answer first).2.answer second).2.gist =
        ((w.answer second).2.answer first).2.gist := by
  rcases stop_or_still hfirst with ⟨firstId, rfl⟩ | ⟨-, hstill⟩
  · rcases stop_or_still hsecond with ⟨secondId, rfl⟩ | ⟨hcall, hstill⟩
    · -- Two containers are asked to stop.
      have hcomm := Memory.perform_stop_comm firstId secondId w.backend
      exact ⟨hcomm.1, gist_eq_iff.2 ⟨rfl, rfl, hcomm.2⟩⟩
    · refine ⟨?_, ?_⟩
      · cases second with
        | call c => exact absurd rfl (hcall c)
        | _ => rfl
      · rw [hstill]
        exact (answer_congr (hstill w) _).2.symm
  · obtain ⟨hanswer, hgist⟩ := answer_congr (hstill w) second
    rw [hstill]
    exact ⟨hanswer, hgist⟩

/-- A request of a reader may come before or after the work of another reader. -/
theorem run_answer {α : Type} {t : Transaction α} (ht : t.Only (S := signature) Request.Reads)
    (hr : r.Reads) (w : World Memory) :
    ((t.run w).2.answer r).1 = (w.answer r).1 ∧
      (t.run (w.answer r).2).1 = (t.run w).1 ∧
      ((t.run w).2.answer r).2.gist = (t.run (w.answer r).2).2.gist := by
  induction t generalizing w with
  | done value => exact ⟨rfl, rfl, rfl⟩
  | ask r' next ih =>
    obtain ⟨hr', hnext⟩ := ht
    rw [run_ask, run_ask]
    -- The two requests change places, and the rest follows by induction.
    obtain ⟨hanswer, hgist⟩ := answer_answer hr' hr w
    obtain ⟨hanswer', -⟩ := answer_answer hr hr' w
    obtain ⟨hi, hii, hiii⟩ := ih (w.answer r').1 (hnext _) (w.answer r').2
    obtain ⟨hvalue, hrest⟩ := run_congr hgist (next (w.answer r').1)
    rw [hanswer']
    exact ⟨hi.trans hanswer, hvalue.symm.trans hii, hiii.trans hrest⟩

end World

end Crew

end Caretaker
