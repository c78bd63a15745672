/-!
# Dictionaries with text keys

Entries are kept in the order of their keys, and no key comes twice.  The order compares character
by character, so it is the order of the keys' bytes.
-/

namespace Caretaker

/-- Values by text key, in the order of the keys. -/
structure Dictionary (α : Type) where
  entries : List (String × α) := []
  /-- Each key is smaller than all later ones. -/
  ordered : entries.Pairwise (·.1 < ·.1) := by simp

namespace Dictionary

variable {α : Type}

instance : EmptyCollection (Dictionary α) := ⟨{}⟩
instance : Inhabited (Dictionary α) := ⟨∅⟩

instance [DecidableEq α] : DecidableEq (Dictionary α) := fun a b =>
  if h : a.entries = b.entries then
    .isTrue (by cases a; cases b; simp_all)
  else .isFalse (by rintro rfl; exact h rfl)

instance [Repr α] : Repr (Dictionary α) := ⟨fun d n => reprPrec d.entries n⟩

/-- An entry put into its place among ordered entries, instead of one with the same key. -/
def place (key : String) (value : α) : List (String × α) → List (String × α)
  | [] => [(key, value)]
  | (k, v) :: entries =>
    if key < k then (key, value) :: (k, v) :: entries
    else if key = k then (key, value) :: entries
    else (k, v) :: place key value entries

theorem mem_place {key : String} {value : α} {entries : List (String × α)} {e : String × α}
    (h : e ∈ place key value entries) : e = (key, value) ∨ e ∈ entries := by
  induction entries with
  | nil => simpa [place] using h
  | cons head entries ih =>
    obtain ⟨k, v⟩ := head
    rw [place] at h
    split at h
    · simpa using h
    · split at h
      · rcases List.mem_cons.1 h with h | h
        · exact .inl h
        · exact .inr (List.mem_cons_of_mem _ h)
      · rcases List.mem_cons.1 h with h | h
        · exact .inr (h ▸ List.mem_cons_self)
        · exact (ih h).imp id (List.mem_cons_of_mem _)

theorem place_pairwise {key : String} {value : α} {entries : List (String × α)}
    (h : entries.Pairwise (·.1 < ·.1)) : (place key value entries).Pairwise (·.1 < ·.1) := by
  induction entries with
  | nil => simp [place]
  | cons head entries ih =>
    obtain ⟨k, v⟩ := head
    obtain ⟨hk, ht⟩ := List.pairwise_cons.1 h
    rw [place]
    split
    · next hlt =>
      -- The key comes before all others.
      refine List.pairwise_cons.2 ⟨fun e he => ?_, h⟩
      rcases List.mem_cons.1 he with rfl | he
      · exact hlt
      · exact String.lt_trans hlt (hk e he)
    · next hlt =>
      split
      · next heq =>
        subst heq
        exact List.pairwise_cons.2 ⟨hk, ht⟩
      · next hne =>
        -- The key comes somewhere behind the first one.
        refine List.pairwise_cons.2 ⟨fun e he => ?_, ih ht⟩
        rcases mem_place he with rfl | he
        · exact Decidable.byContradiction fun hge =>
            hne (String.le_antisymm (String.not_lt.1 hge) (String.not_lt.1 hlt))
        · exact hk e he

/-- The dictionary with a value for a key, in the place of an older value. -/
def insert (key : String) (value : α) (d : Dictionary α) : Dictionary α where
  entries := place key value d.entries
  ordered := place_pairwise d.ordered

/-- The dictionary of a list of entries; of two with one key the later one stays. -/
def ofList (entries : List (String × α)) : Dictionary α :=
  entries.foldl (fun d (key, value) => d.insert key value) ∅

/-- The value of a key. -/
def get? (key : String) (d : Dictionary α) : Option α :=
  (d.entries.find? (·.1 == key)).map (·.2)

/-- The keys, in order. -/
def keys (d : Dictionary α) : List String := d.entries.map (·.1)

/-- Whether there is no entry. -/
def isEmpty (d : Dictionary α) : Bool := d.entries.isEmpty

/-- The entries that satisfy a test. -/
def filter (test : String → α → Bool) (d : Dictionary α) : Dictionary α where
  entries := d.entries.filter fun (key, value) => test key value
  ordered := d.ordered.filter _

/-- The value of a key changed, if there is one. -/
def modify (key : String) (change : α → α) (d : Dictionary α) : Dictionary α where
  entries := d.entries.map fun (k, value) => (k, if k == key then change value else value)
  ordered := List.pairwise_map.2 d.ordered

@[simp] theorem entries_insert (key : String) (value : α) (d : Dictionary α) :
    (d.insert key value).entries = place key value d.entries := rfl

/-! ## What a key stands for -/

/-- A key that is smaller than those of all entries has none. -/
theorem find?_eq_none_of_forall_lt {key : String} {entries : List (String × α)}
    (h : ∀ e ∈ entries, key < e.1) : entries.find? (·.1 == key) = none := by
  refine List.find?_eq_none.2 fun e he heq => ?_
  have hlt := h e he
  rw [beq_iff_eq.1 heq] at hlt
  exact String.lt_irrefl _ hlt

@[simp] theorem get?_empty (key : String) : (∅ : Dictionary α).get? key = none := rfl

theorem find?_place_self (key : String) (value : α) (entries : List (String × α)) :
    (place key value entries).find? (·.1 == key) = some (key, value) := by
  induction entries with
  | nil => simp [place]
  | cons head entries ih =>
    rw [place]
    split
    · simp
    · split
      · simp
      · next hne => simpa [Ne.symm hne] using ih

theorem find?_place_of_ne {key other : String} (value : α) (entries : List (String × α))
    (h : other ≠ key) :
    (place key value entries).find? (·.1 == other) = entries.find? (·.1 == other) := by
  induction entries with
  | nil => simp [place, Ne.symm h]
  | cons head entries ih =>
    rw [place]
    split
    · simp [Ne.symm h]
    · split
      · next heq =>
        subst heq
        simp [Ne.symm h]
      · simp only [List.find?_cons, ih]

@[simp] theorem get?_insert_self (key : String) (value : α) (d : Dictionary α) :
    (d.insert key value).get? key = some value := by
  simp [get?, find?_place_self]

theorem get?_insert_of_ne {key other : String} (value : α) (d : Dictionary α) (h : other ≠ key) :
    (d.insert key value).get? other = d.get? other := by
  simp [get?, find?_place_of_ne value d.entries h]

theorem get?_modify (key other : String) (change : α → α) (d : Dictionary α) :
    (d.modify key change).get? other =
      if other = key then (d.get? other).map change else d.get? other := by
  obtain ⟨entries, _⟩ := d
  simp only [get?, modify]
  induction entries with
  | nil => simp
  | cons head entries ih =>
    have ih := ih (List.pairwise_cons.1 ‹_›).2
    by_cases ho : head.1 = other
    · by_cases hk : other = key <;> simp [ho, hk]
    · simp only [List.map_cons, List.find?_cons, beq_eq_false_iff_ne.2 ho]
      exact ih

theorem get?_filter (key : String) (test : String → α → Bool) (d : Dictionary α) :
    (d.filter test).get? key = (d.get? key).filter (test key) := by
  obtain ⟨entries, hordered⟩ := d
  simp only [get?, filter]
  induction entries with
  | nil => rfl
  | cons head entries ih =>
    obtain ⟨hfirst, hrest⟩ := List.pairwise_cons.1 hordered
    have ih := ih hrest
    by_cases hhead : head.1 = key
    · -- No other entry has the key, so nothing comes in the place of this one.
      subst hhead
      have hnone : (entries.filter fun e => test e.1 e.2).find? (·.1 == head.1) = none :=
        find?_eq_none_of_forall_lt fun e he => hfirst e (List.mem_filter.1 he).1
      by_cases htest : test head.1 head.2 = true <;> simp [Option.filter, htest, hnone]
    · by_cases htest : test head.1 head.2 = true <;> simpa [htest, hhead] using ih

/-! ## Keys -/

theorem mem_keys_iff {key : String} {d : Dictionary α} :
    key ∈ d.keys ↔ (d.get? key).isSome = true := by
  simp [keys, get?]

/-- The entries are the keys with what they stand for. -/
theorem mem_entries_iff {key : String} {value : α} {d : Dictionary α} :
    (key, value) ∈ d.entries ↔ d.get? key = some value := by
  obtain ⟨entries, hordered⟩ := d
  simp only [get?]
  induction entries with
  | nil => simp
  | cons head entries ih =>
    obtain ⟨first, held⟩ := head
    obtain ⟨hfirst, hrest⟩ := List.pairwise_cons.1 hordered
    rw [List.mem_cons, ih hrest]
    by_cases hkey : first = key
    · subst hkey
      have hnone : entries.find? (·.1 == first) = none := find?_eq_none_of_forall_lt hfirst
      simp [hnone, eq_comm]
    · have hother : (key, value) ≠ (first, held) := fun heq => hkey (Prod.mk.inj heq).1.symm
      rw [List.find?_cons_of_neg (by simpa using hkey)]
      simp [hother]

end Dictionary
end Caretaker
