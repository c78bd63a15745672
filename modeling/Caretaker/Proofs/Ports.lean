import Mathlib.Data.List.DropRight
import Mathlib.Data.List.Induction
import Mathlib.Data.List.Perm.Basic
import Caretaker.Engine.CreateRequest

/-!
# The numbers of a request

A descriptor lists numbers of the host, each with a number of the container, and either may come
more than once.  The request has two dictionaries that are filled in step: what the container
offers, and the numbers of the host for each of that.

Main definitions:

- `hostsOf`: the numbers of the host that are listed with a number of the container.
- `pairsOf`: the pairs that entries of bindings stand for.

Main statements:

- `get?_bindingsOf`: a number of the container gets the numbers of the host that are listed with it.
- `listed_of_bindingsOf`: nothing that is listed is lost, and nothing is added.
- `ports_bound`: so the request has what the descriptor lists.
-/

namespace Caretaker

namespace Dictionary

variable {α β : Type} {key : String}

theorem mem_keys_insert {other : String} {value : α} {d : Dictionary α} :
    other ∈ (d.insert key value).keys ↔ other = key ∨ other ∈ d.keys := by
  simp only [mem_keys_iff]
  by_cases h : other = key
  · simp [h]
  · simp [h, get?_insert_of_ne]

/-- A key that is smaller than the first one has no value. -/
theorem find?_eq_none_of_lt {head : String × α} {entries : List (String × α)}
    (h : (head :: entries).Pairwise (·.1 < ·.1)) (hlt : key < head.1) :
    (head :: entries).find? (·.1 == key) = none := by
  refine find?_eq_none_of_forall_lt fun e he => ?_
  rcases List.mem_cons.1 he with rfl | he
  · exact hlt
  · exact String.lt_trans hlt ((List.pairwise_cons.1 h).1 e he)

end Dictionary

namespace Engine.CreateRequest

variable {ports : List (String × String)}

/-! ## Both dictionaries in step -/

theorem exposedOf_concat (host inside : String) :
    exposedOf (ports ++ [(host, inside)]) = (exposedOf ports).insert (portKey inside) () := by
  simp [exposedOf]

theorem bindingsOf_concat (host inside : String) :
    bindingsOf (ports ++ [(host, inside)]) =
      (bindingsOf ports).insert (portKey inside)
        (((bindingsOf ports).get? (portKey inside)).getD [] ++ [host]) := by
  simp [bindingsOf]

theorem portKey_injective {port port' : String} (h : portKey port = portKey port') :
    port = port' := by
  simpa [portKey] using h

/-- What a container offers is what is listed for it. -/
theorem mem_keys_exposedOf {key : String} :
    key ∈ (exposedOf ports).keys ↔ ∃ port ∈ ports, key = portKey port.2 := by
  induction ports using List.reverseRecOn with
  | nil => simp [exposedOf, Dictionary.mem_keys_iff]
  | append_singleton ports port ih =>
    rw [exposedOf_concat, Dictionary.mem_keys_insert, ih]
    simp [or_and_right, exists_or, or_comm]

@[inherit_doc mem_keys_exposedOf]
theorem mem_keys_bindingsOf {key : String} :
    key ∈ (bindingsOf ports).keys ↔ ∃ port ∈ ports, key = portKey port.2 := by
  induction ports using List.reverseRecOn with
  | nil => simp [bindingsOf, Dictionary.mem_keys_iff]
  | append_singleton ports port ih =>
    rw [bindingsOf_concat, Dictionary.mem_keys_insert, ih]
    simp [or_and_right, exists_or, or_comm]

/-! ## Numbers of the host by number of the container -/

/-- The numbers of the host that are listed with a number of the container. -/
def hostsOf (ports : List (String × String)) (inside : String) : List String :=
  (ports.filter (·.2 = inside)).map (·.1)

/-- A number of the container gets the numbers of the host that are listed with it, in order and as
often as they are listed. -/
theorem get?_bindingsOf (ports : List (String × String)) (inside : String) :
    (bindingsOf ports).get? (portKey inside) =
      if inside ∈ ports.map (·.2) then some (hostsOf ports inside) else none := by
  induction ports using List.reverseRecOn with
  | nil => rfl
  | append_singleton ports port ih =>
    obtain ⟨host, other⟩ := port
    rw [bindingsOf_concat]
    by_cases h : inside = other
    · subst h
      -- the first number for a key is put behind none
      have hhosts : ((bindingsOf ports).get? (portKey inside)).getD [] = hostsOf ports inside := by
        rw [ih]
        split
        · rfl
        · next hnot =>
          have hnone : ports.filter (·.2 = inside) = [] := by
            refine List.filter_eq_nil_iff.2 fun port hport heq => hnot ?_
            exact List.mem_map.2 ⟨port, hport, of_decide_eq_true heq⟩
          rw [hostsOf, hnone]
          rfl
      rw [Dictionary.get?_insert_self, hhosts]
      simp [hostsOf]
    · have hkey : portKey inside ≠ portKey other := fun heq => h (portKey_injective heq)
      have hmem : inside ∈ (ports ++ [(host, other)]).map (·.2) ↔ inside ∈ ports.map (·.2) := by
        simp [h]
      have hhosts : hostsOf (ports ++ [(host, other)]) inside = hostsOf ports inside := by
        simp [hostsOf, Ne.symm h]
      rw [Dictionary.get?_insert_of_ne _ _ hkey, ih, hhosts]
      simp only [hmem]

/-! ## Nothing is lost -/

/-- The pairs of a number of the host and a key that some entries stand for. -/
def pairsOf (entries : List (String × List String)) : List (String × String) :=
  entries.flatMap fun (key, hosts) => hosts.map fun host => (host, key)

/-- One more number for a key makes one more pair. -/
theorem pairsOf_place {entries : List (String × List String)}
    (h : entries.Pairwise (·.1 < ·.1)) (key host : String) :
    (pairsOf (Dictionary.place key
      (((entries.find? (·.1 == key)).map (·.2)).getD [] ++ [host]) entries)).Perm
      ((host, key) :: pairsOf entries) := by
  induction entries with
  | nil => simp [pairsOf, Dictionary.place]
  | cons head entries ih =>
    obtain ⟨first, hosts⟩ := head
    rw [Dictionary.place]
    split
    · next hlt =>
      rw [Dictionary.find?_eq_none_of_lt h hlt]
      exact .refl _
    split
    · next heq =>
      subst heq
      simp [pairsOf, List.perm_middle]
    · next hne =>
      -- the key comes behind the first entry
      have hfind : ((first, hosts) :: entries).find? (·.1 == key) = entries.find? (·.1 == key) :=
        List.find?_cons_of_neg (by simpa using Ne.symm hne)
      rw [hfind]
      have hrest := ih (List.pairwise_cons.1 h).2
      exact (hrest.append_left _).trans List.perm_middle

/-- The pairs in the bindings are those that are listed, under the keys of their numbers. -/
theorem pairsOf_bindingsOf (ports : List (String × String)) :
    (pairsOf (bindingsOf ports).entries).Perm
      (ports.map fun (host, inside) => (host, portKey inside)) := by
  induction ports using List.reverseRecOn with
  | nil => exact .refl _
  | append_singleton ports port ih =>
    obtain ⟨host, inside⟩ := port
    rw [bindingsOf_concat, List.map_append]
    have hplace := pairsOf_place (bindingsOf ports).ordered (portKey inside) host
    exact hplace.trans ((ih.cons _).trans (List.perm_append_singleton _ _).symm)

/-- The number of a container that a key is for. -/
def portOf (key : String) : String := String.ofList (key.toList.rdrop "/tcp".length)

theorem portOf_portKey (port : String) : portOf (portKey port) = port := by
  rw [portOf, portKey, String.toList_append, ← String.length_toList, List.rdrop_append_length,
    String.ofList_toList]

/-- Nothing that is listed is lost, and nothing is added. -/
theorem listed_of_bindingsOf (ports : List (String × String)) :
    ((bindingsOf ports).entries.flatMap fun (key, hosts) =>
      hosts.map fun host => (host, portOf key)).Perm ports := by
  have hpairs := (pairsOf_bindingsOf ports).map fun (host, key) => (host, portOf key)
  rw [List.map_map, pairsOf, List.map_flatMap] at hpairs
  simpa [Function.comp_def, portOf_portKey] using hpairs

/-- In a request for a container there are the numbers of its descriptor: those that are listed for
the container, and for each of them the numbers of the host that are listed with it, in order and as
often as they are listed.  Altogether these are the listed pairs. -/
theorem ports_bound (d : Descriptor) :
    let request := ofDescriptor d
    (∀ key, key ∈ request.exposed.keys ↔ ∃ port ∈ d.ports, key = port.2 ++ "/tcp") ∧
    (∀ key, key ∈ request.bindings.keys ↔ ∃ port ∈ d.ports, key = port.2 ++ "/tcp") ∧
    (∀ inside, request.bindings.get? (inside ++ "/tcp") =
      if inside ∈ d.ports.map (·.2) then some ((d.ports.filter (·.2 = inside)).map (·.1))
      else none) ∧
    (request.bindings.entries.flatMap fun (key, hosts) =>
      hosts.map fun host => (host, portOf key)).Perm d.ports :=
  ⟨fun _ => mem_keys_exposedOf, fun _ => mem_keys_bindingsOf, get?_bindingsOf d.ports,
    listed_of_bindingsOf d.ports⟩

end Engine.CreateRequest
end Caretaker
