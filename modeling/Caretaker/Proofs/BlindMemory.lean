import Caretaker.Proofs.Concealed
import Caretaker.Proofs.Memory

/-!
# Containers in memory are blind to the passphrase

Memory keeps the descriptors that containers were started from, and never looks at their files.  So
what it does without the passphrase is what it does with it, with the passphrase concealed.

Main statements:

- `perform_concealed`, `perform_start_concealed`: calls on memory without the passphrase.
-/

namespace Caretaker

namespace Dictionary

variable {α : Type} {d : Dictionary α}

theorem ext_entries {d d' : Dictionary α} (h : d.entries = d'.entries) : d = d' := by
  cases d
  cases d'
  cases h
  rfl

/-- A dictionary with all values changed. -/
def mapValues (f : α → α) (d : Dictionary α) : Dictionary α where
  entries := d.entries.map fun e => (e.1, f e.2)
  ordered := List.pairwise_map.2 d.ordered

@[simp] theorem entries_mapValues (f : α → α) (d : Dictionary α) :
    (d.mapValues f).entries = d.entries.map fun e => (e.1, f e.2) := rfl

theorem get?_mapValues (f : α → α) (key : String) (d : Dictionary α) :
    (d.mapValues f).get? key = (d.get? key).map f := by
  simp only [get?, mapValues, List.find?_map, Option.map_map]
  rfl

theorem mapValues_filter {f : α → α} {test : String → α → Bool}
    (h : ∀ key value, test key (f value) = test key value) (d : Dictionary α) :
    (d.filter test).mapValues f = (d.mapValues f).filter test := by
  refine ext_entries ?_
  simp only [filter, mapValues, List.filter_map, Function.comp_def, h]

theorem mapValues_insert (f : α → α) (key : String) (value : α) (d : Dictionary α) :
    (d.insert key value).mapValues f = (d.mapValues f).insert key (f value) := by
  refine ext_entries ?_
  show (place key value d.entries).map _ = place key (f value) (d.entries.map _)
  induction d.entries with
  | nil => rfl
  | cons head entries ih =>
    simp only [place, List.map_cons]
    split
    · rfl
    · split
      · rfl
      · rw [List.map_cons, ih]

theorem mapValues_modify {f change : α → α} (h : ∀ value, f (change value) = change (f value))
    (key : String) (d : Dictionary α) :
    (d.modify key change).mapValues f = (d.mapValues f).modify key change := by
  refine ext_entries ?_
  simp only [modify, mapValues, List.map_map]
  refine List.map_congr_left fun e _ => ?_
  simp only [Function.comp_apply]
  split <;> simp [h]

end Dictionary

namespace Container

/-- A container without the passphrase. -/
def Stored.concealed (c : Stored) : Stored := { c with descriptor := c.descriptor.concealed }

namespace Memory

/-- Containers in memory without the passphrase. -/
def concealed (m : Memory) : Memory :=
  { m with containers := m.containers.mapValues Stored.concealed }

theorem setState_concealed (id : String) (state : ContainerState) (m : Memory) :
    m.concealed.setState id state = (m.setState id state).concealed := by
  simp only [setState, concealed]
  rw [Dictionary.mapValues_modify]
  exact fun _ => rfl

theorem serve_concealed (m : Memory) {c : Call} (h : c.operation ≠ .start) :
    m.concealed.serve c = { m.serve c with state := (m.serve c).state.concealed } := by
  have hget : ∀ id, m.concealed.containers.get? id =
      (m.containers.get? id).map Stored.concealed := fun id => Dictionary.get?_mapValues _ _ _
  cases c with
  | start d => exact absurd rfl h
  | list =>
    have hinfos : m.concealed.infos = m.infos := by
      simp [infos, concealed, Dictionary.mapValues, Function.comp_def, Stored.concealed]
    simp only [serve, hinfos]
  | restart id =>
    simp only [serve, hget]
    cases m.containers.get? id <;> simp [setState_concealed]
  | stop id => simp only [serve, setState_concealed]
  | terminate id =>
    simp only [serve, hget]
    cases m.containers.get? id <;> simp [setState_concealed]
  | prune =>
    simp only [serve, concealed]
    rw [Dictionary.mapValues_filter]
    exact fun _ _ => rfl
  | inspect id =>
    simp only [serve, hget]
    cases m.containers.get? id <;> rfl
  | nuke => rfl
  | _ => rfl

theorem start_concealed (m : Memory) (d : Descriptor) :
    m.concealed.start d.concealed =
      { answer := (m.start d).answer.concealed
        state := (m.start d).state.concealed
        events := (m.start d).events } := by
  -- a namesake is found by the name, which is not concealed
  have hwithout : m.concealed.withoutName d.name =
      (m.withoutName d.name).mapValues Stored.concealed := by
    refine (Dictionary.mapValues_filter ?_ _).symm
    exact fun _ _ => rfl
  simp only [start, Descriptor.name_concealed, Descriptor.image_concealed, hwithout]
  simp [concealed, Dictionary.mapValues_insert, List.filter_map, Function.comp_def,
    Stored.concealed, Handle.concealed]

theorem perform_concealed (m : Memory) {c : Call} (h : c.operation ≠ .start) :
    m.concealed.perform c = { m.perform c with state := (m.perform c).state.concealed } := by
  by_cases hfailing : c.operation ∈ m.failing
  · have hfailing' : c.operation ∈ m.concealed.failing := hfailing
    rw [perform_of_mem hfailing, perform_of_mem hfailing']
    rfl
  · have hfailing' : c.operation ∉ m.concealed.failing := hfailing
    rw [perform_of_notMem hfailing, perform_of_notMem hfailing']
    exact serve_concealed (m.record c) h

theorem perform_start_concealed (m : Memory) (d : Descriptor) :
    m.concealed.perform (.start d.concealed) =
      { answer := (m.perform (.start d)).answer.map Handle.concealed
        state := (m.perform (.start d)).state.concealed
        events := (m.perform (.start d)).events } := by
  have hrecord : m.concealed.record (.start d.concealed) = (m.record (.start d)).concealed := by
    unfold record
    rw [Call.target, Descriptor.name_concealed]
    rfl
  -- memory records a start by its target, which is the name again
  by_cases hfailing : (Call.start d).operation ∈ m.failing
  · have hfailing' : (Call.start d.concealed).operation ∈ m.concealed.failing := hfailing
    rw [perform_of_mem hfailing, perform_of_mem hfailing', hrecord]
    rfl
  · have hfailing' : (Call.start d.concealed).operation ∉ m.concealed.failing := hfailing
    rw [perform_of_notMem hfailing, perform_of_notMem hfailing', hrecord]
    simp only [serve, start_concealed]
    rfl

/-- Memory is blind: no call looks at the files of a container. -/
instance : Blind Memory where
  alike m m' := m.concealed = m'.concealed
  refl _ := rfl
  perform := by
    intro c c' told m m' hc hm
    cases hc with
    | same c h =>
      have hreply := perform_concealed m h
      rw [hm, perform_concealed m' h] at hreply
      exact ⟨(congrArg Reply.answer hreply).symm, (congrArg Reply.state hreply).symm,
        (congrArg Reply.events hreply).symm⟩
    | @start d d' hd =>
      have hreply := perform_start_concealed m d
      rw [hd, hm, perform_start_concealed m' d'] at hreply
      exact ⟨sameUpTo_of_map (congrArg Reply.answer hreply).symm,
        (congrArg Reply.state hreply).symm, (congrArg Reply.events hreply).symm⟩

end Memory
end Container
end Caretaker
