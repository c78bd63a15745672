import Caretaker.Engine.CreateRequest
import Caretaker.Launch
import Caretaker.Text.Split

/-!
# Paths on their way into a container

What a container sees of its host goes into its descriptor as a path of the host with a path in the
container, and into the request to the engine as a text with a colon between the two.  The engine
cuts the text at its colons.  Nothing is asked of the directory of the host, so it may have a colon
in it or be empty, and then the engine does not get back what was put together; and it may be the
path of the engine's socket, and then it takes the place of the socket.

Main definitions:

- `Engine.mount?`: the two paths that an engine reads in a text.

Main statements:

- `Role.get?_volumes`: where each path of the host is in the container of a role.
- `Engine.map_mount?_binds_iff`: when an engine gets back all paths of a descriptor.
- `Engine.mounts_kept_iff`: so this depends on the directory of the host.
- `Engine.mount_cut_in_three`: a directory of which the engine reads three parts.
-/

namespace Caretaker

/-! ## The paths of a role -/

section Volumes

variable (role : Role) (settings : Settings) (image : String) (refs : ImageRefs)

/-- The directory of the host is in every container, and the socket of the engine is in that of the
supervisor, unless it is the directory. -/
theorem Role.get?_volumes (path : String) :
    (role.descriptor settings image refs).volumes.get? path =
      if path = settings.nodeDir then some containerNodeDir
      else if role = .supervisor ∧ path = engineSocketPath then some engineSocketPath
      else none := by
  have hnode (d : Dictionary String) :
      (d.insert settings.nodeDir containerNodeDir).get? path =
        if path = settings.nodeDir then some containerNodeDir else d.get? path := by
    split
    · next h => rw [h, Dictionary.get?_insert_self]
    · next h => exact Dictionary.get?_insert_of_ne _ _ h
  cases role with
  | updater => exact (hnode ∅).trans (by simp)
  | supervisor =>
    refine (hnode (Dictionary.insert engineSocketPath engineSocketPath ∅)).trans ?_
    by_cases h : path = engineSocketPath
    · simp [h]
    · simp [h, Dictionary.get?_insert_of_ne]

theorem Role.mem_volumes {entry : String × String}
    (h : entry ∈ (role.descriptor settings image refs).volumes.entries) :
    entry = (settings.nodeDir, containerNodeDir) ∨
      entry = (engineSocketPath, engineSocketPath) := by
  cases role with
  | updater =>
    rcases Dictionary.mem_place h with rfl | h
    · exact .inl rfl
    · cases h
  | supervisor =>
    rcases Dictionary.mem_place h with rfl | h
    · exact .inl rfl
    · rcases Dictionary.mem_place h with rfl | h
      · exact .inr rfl
      · cases h

end Volumes

theorem Dictionary.mem_of_get? {α : Type} {d : Dictionary α} {key : String} {value : α}
    (h : d.get? key = some value) : (key, value) ∈ d.entries := by
  obtain ⟨entry, hfind, rfl⟩ := Option.map_eq_some_iff.1 h
  have hkey : entry.1 = key := by simpa using List.find?_some hfind
  exact hkey ▸ List.mem_of_find?_eq_some hfind

/-! ## Paths as texts -/

namespace Engine

/-- The two paths that an engine reads in a text: what is before and behind its one colon, none of
it empty. -/
def mount? (bind : String) : Option (String × String) :=
  match Text.splitOn ':' bind.toList with
  | [host, inside] =>
    if host = [] ∨ inside = [] then none else some (String.ofList host, String.ofList inside)
  | _ => none

/-- A path that can be one of two with a colon between them. -/
def IsPlainPath (path : String) : Prop := path ≠ "" ∧ ':' ∉ path.toList

theorem toList_bind (host inside : String) :
    (host ++ ":" ++ inside).toList = host.toList ++ ':' :: inside.toList := by
  simp

/-- A text of two parts has one colon, which is not in the paths that were put together. -/
theorem notMem_of_splitOn {host inside front back : List Char}
    (h : Text.splitOn ':' (host ++ ':' :: inside) = [front, back]) :
    ':' ∉ host ∧ ':' ∉ inside := by
  have hlength := congrArg List.length h
  rw [Text.length_splitOn, List.count_append, List.count_cons_self] at hlength
  have hcolons : host.count ':' = 0 ∧ inside.count ':' = 0 := by
    simp only [List.length_cons, List.length_nil] at hlength
    omega
  exact ⟨List.count_eq_zero.1 hcolons.1, List.count_eq_zero.1 hcolons.2⟩

/-- An engine gets two paths back exactly if neither is empty and there is no colon in them. -/
theorem mount?_bind_iff (host inside : String) :
    mount? (host ++ ":" ++ inside) = some (host, inside) ↔
      IsPlainPath host ∧ IsPlainPath inside := by
  rw [mount?, toList_bind]
  constructor
  · intro h
    split at h
    · next front back hparts =>
      obtain ⟨hhost, hinside⟩ := notMem_of_splitOn hparts
      rw [Text.splitOn_append, Text.splitOn_of_notMem hhost, Text.splitOn_of_notMem hinside]
        at hparts
      obtain ⟨rfl, rfl⟩ : host.toList = front ∧ inside.toList = back := by simpa using hparts
      split at h
      · cases h
      · next hne =>
        rw [not_or, String.toList_eq_nil_iff, String.toList_eq_nil_iff] at hne
        exact ⟨⟨hne.1, hhost⟩, hne.2, hinside⟩
    · cases h
  · rintro ⟨⟨hhost, hhostColon⟩, hinside, hinsideColon⟩
    rw [Text.splitOn_append, Text.splitOn_of_notMem hhostColon, Text.splitOn_of_notMem hinsideColon]
    simp [hhost, hinside]

/-- An engine gets back all paths of a descriptor exactly if each of them is plain. -/
theorem map_mount?_binds_iff (d : Descriptor) :
    (CreateRequest.ofDescriptor d).binds.map mount? = d.volumes.entries.map some ↔
      ∀ entry ∈ d.volumes.entries, IsPlainPath entry.1 ∧ IsPlainPath entry.2 := by
  have hentry (entry : String × String) :
      mount? (entry.1 ++ ":" ++ entry.2) = some entry ↔
        IsPlainPath entry.1 ∧ IsPlainPath entry.2 := mount?_bind_iff entry.1 entry.2
  simp only [CreateRequest.ofDescriptor, List.map_map, List.map_inj_left, Function.comp_apply,
    hentry]

/-- The directory of the host is in every container.  The socket of the engine is in that of the
supervisor as well, unless it is the directory.  And an engine gets back what was put together
exactly if the directory has a path that is not empty and has no colon in it. -/
theorem mounts_kept_iff (settings : Settings) (role : Role) (image : String) (refs : ImageRefs) :
    let d := role.descriptor settings image refs
    d.volumes.get? settings.nodeDir = some containerNodeDir ∧
    (d.volumes.get? engineSocketPath = some engineSocketPath ↔
      role = .supervisor ∧ settings.nodeDir ≠ engineSocketPath) ∧
    ((CreateRequest.ofDescriptor d).binds.map mount? = d.volumes.entries.map some ↔
      settings.nodeDir ≠ "" ∧ ':' ∉ settings.nodeDir.toList) := by
  intro d
  have hnode : d.volumes.get? settings.nodeDir = some containerNodeDir := by
    rw [Role.get?_volumes, if_pos rfl]
  have hinside : IsPlainPath containerNodeDir := ⟨by decide, by decide⟩
  have hsocket : IsPlainPath engineSocketPath := ⟨by decide, by decide⟩
  refine ⟨hnode, ?_, ?_⟩
  · have hne : some containerNodeDir ≠ some engineSocketPath := by decide
    rw [Role.get?_volumes]
    by_cases h : engineSocketPath = settings.nodeDir
    · simp [h.symm, hne]
    · simp [h, Ne.symm h]
  · rw [map_mount?_binds_iff]
    constructor
    · intro h
      exact (h _ (Dictionary.mem_of_get? hnode)).1
    · intro h entry hentry
      rcases role.mem_volumes settings image refs hentry with rfl | rfl
      · exact ⟨h, hinside⟩
      · exact ⟨hsocket, hsocket⟩

namespace Sample

/-- A directory that has a colon in its name. -/
def nodeDir : String → Option String := fun name =>
  if name = "RUNNER_NODE_DIR" then some "/srv/node:a" else none

end Sample

/-- Settings with such a directory are taken, and the engine reads three parts in what is made of
it. -/
theorem mount_cut_in_three :
    ∃ settings, Settings.ofLookup Sample.nodeDir = .ok settings ∧
      let d := Role.updater.descriptor settings "upd:v1" ⟨"sup:v1", "upd:v1", none⟩
      d.volumes.get? "/srv/node:a" = some "/.node" ∧
      (CreateRequest.ofDescriptor d).binds.map (fun bind => Text.splitOn ':' bind.toList) =
        [["/srv/node".toList, "a".toList, "/.node".toList]] := by
  refine ⟨_, rfl, ?_, by decide +kernel⟩
  rw [Role.get?_volumes]
  rfl

end Engine
end Caretaker
