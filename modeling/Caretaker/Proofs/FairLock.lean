import Mathlib.Data.List.Nodup
import Caretaker.Crew.FairLock

/-!
# Exclusion by the fair lock

The lock keeps its promise: a writer that holds it holds it alone.  Nobody is entered in it twice,
neither as a holder nor in the queue, so who gives it back is gone from it.

Main statements:

- `Sound.acquire`, `Sound.tryShared`, `Sound.release`: what every request keeps.
- `Sound.eq_of_exclusive`: a writer holds alone.
-/

namespace Caretaker.Crew.FairLock

/-- Readers together, or one alone. -/
def Exclusive (holders : List (Nat × Access)) : Prop :=
  (∀ h ∈ holders, h.2 = .shared) ∨ ∃ h, holders = [h]

/-- Everybody in the lock, the holders first. -/
def entries (lock : FairLock) : List (Nat × Access) := lock.holders ++ lock.queue

/-- A lock as requests leave it. -/
structure Sound (lock : FairLock) : Prop where
  exclusive : Exclusive lock.holders
  /-- Nobody is entered twice. -/
  once : (lock.entries.map (·.1)).Nodup

variable {lock : FairLock} {who other : Nat} {access : Access}

theorem sound_empty : Sound {} where
  exclusive := .inl fun _ h => absurd h List.not_mem_nil
  once := List.nodup_nil

theorem mem_entries_of_holds {h : Nat × Access} (hh : h ∈ lock.holders) : h ∈ lock.entries :=
  List.mem_append_left _ hh

/-! ## What soundness gives -/

/-- A writer that holds the lock is its only holder. -/
theorem Sound.eq_of_exclusive (hs : lock.Sound) (hw : (who, .exclusive) ∈ lock.holders)
    (ho : (other, access) ∈ lock.holders) : other = who := by
  rcases hs.exclusive with hshared | ⟨h, hh⟩
  · -- Readers only: there is no writer among them.
    exact absurd (hshared _ hw) (by simp)
  · rw [hh, List.mem_singleton] at hw ho
    exact (Prod.ext_iff.1 (ho.trans hw.symm)).1

/-- Who holds the lock is entered once, as its holder. -/
theorem Sound.eq_of_holds (hs : lock.Sound) {held : Access} (hh : (who, held) ∈ lock.holders)
    (he : (who, access) ∈ lock.entries) : access = held :=
  (Prod.ext_iff.1 (List.inj_on_of_nodup_map hs.once he (mem_entries_of_holds hh) rfl)).2

/-! ## Handing over -/

theorem Exclusive.cons {holders : List (Nat × Access)}
    (hadm : admits { holders } access = true) : Exclusive ((who, access) :: holders) := by
  cases access with
  | shared =>
    -- A reader joins readers only.
    have hshared : ∀ h ∈ holders, h.2 = .shared := by simpa [admits] using hadm
    refine .inl fun h hh => ?_
    rcases List.mem_cons.1 hh with rfl | hh
    · rfl
    · exact hshared h hh
  | exclusive =>
    -- A writer comes in when nobody is there.
    have hnone : holders = [] := by simpa [admits] using hadm
    exact .inr ⟨(who, .exclusive), by rw [hnone]⟩

theorem Exclusive.handOver {holders queue : List (Nat × Access)} (he : Exclusive holders) :
    Exclusive (FairLock.handOver holders queue).holders := by
  induction queue generalizing holders with
  | nil => exact he
  | cons head queue ih =>
    rw [FairLock.handOver]
    split
    · next hadm => exact ih (.cons hadm)
    · exact he

/-- Handing over moves entries from the queue to the holders, and loses none. -/
theorem entries_handOver (holders queue : List (Nat × Access)) :
    (handOver holders queue).entries.Perm (holders ++ queue) := by
  induction queue generalizing holders with
  | nil => exact .refl _
  | cons head queue ih =>
    rw [handOver]
    split
    · exact (ih (head :: holders)).trans List.perm_middle.symm
    · exact .refl _

theorem holders_subset_handOver (holders queue : List (Nat × Access)) :
    holders ⊆ (handOver holders queue).holders := by
  induction queue generalizing holders with
  | nil => exact List.Subset.refl _
  | cons head queue ih =>
    rw [handOver]
    split
    · intro h hh
      exact ih (head :: holders) (List.mem_cons_of_mem _ hh)
    · exact List.Subset.refl _

/-- Nobody is left waiting for a lock that nobody holds. -/
theorem queue_handOver {holders queue : List (Nat × Access)}
    (h : (handOver holders queue).holders = []) : (handOver holders queue).queue = [] := by
  cases queue with
  | nil => rfl
  | cons head queue =>
    -- The first who waits would be let in.
    have hholders : holders = [] := by
      have hsubset := holders_subset_handOver holders (head :: queue)
      rw [h] at hsubset
      exact List.subset_nil.1 hsubset
    subst hholders
    have hadmits : admits { holders := [] } head.2 = true := by
      cases head.2 <;> rfl
    rw [handOver, if_pos hadmits] at h
    have hmem := holders_subset_handOver [(head.1, head.2)] queue List.mem_cons_self
    rw [h] at hmem
    cases hmem

/-! ## Giving the lock back -/

theorem Exclusive.filter {holders : List (Nat × Access)} (he : Exclusive holders)
    (test : Nat × Access → Bool) : Exclusive (holders.filter test) := by
  rcases he with hshared | ⟨h, rfl⟩
  · exact .inl fun h hh => hshared h (List.mem_of_mem_filter hh)
  · cases htest : test h with
    | true => exact .inr ⟨h, by simp [htest]⟩
    | false => exact .inl (by simp [htest])

theorem Sound.release (hs : lock.Sound) : (lock.release who).Sound where
  exclusive := (hs.exclusive.filter _).handOver
  once := by
    rw [FairLock.release, ((entries_handOver _ _).map _).nodup_iff]
    exact hs.once.sublist ((List.filter_sublist.append (List.Sublist.refl _)).map _)

theorem mem_entries_of_release {h : Nat × Access} (hh : h ∈ (lock.release who).entries) :
    h ∈ lock.entries := by
  rcases List.mem_append.1 ((entries_handOver _ _).mem_iff.1 hh) with hh | hh
  · exact mem_entries_of_holds (List.mem_of_mem_filter hh)
  · exact List.mem_append_right _ hh

/-- Who held the lock and gives it back is gone from it. -/
theorem Sound.notMem_release (hs : lock.Sound) {held : Access} (hh : (who, held) ∈ lock.holders) :
    (who, access) ∉ (lock.release who).entries := by
  intro he
  rcases List.mem_append.1 ((entries_handOver _ _).mem_iff.1 he) with hf | hq
  · exact absurd (List.mem_filter.1 hf).2 (by simp)
  · -- The same number would stand among the holders and in the queue.
    have honce := hs.once
    rw [entries, List.map_append] at honce
    exact List.disjoint_of_nodup_append honce (List.mem_map_of_mem hh) (List.mem_map.2 ⟨_, hq, rfl⟩)

theorem holders_release_of_ne {h : Nat × Access} (hh : h ∈ lock.holders) (hne : h.1 ≠ who) :
    h ∈ (lock.release who).holders :=
  holders_subset_handOver _ _ (List.mem_filter.2 ⟨hh, by simpa using hne⟩)

/-! ## Asking for the lock -/

theorem holds_iff : lock.holds who = true ↔ ∃ access, (who, access) ∈ lock.holders := by
  simp [holds]

theorem awaits_iff : lock.awaits who = true ↔ ∃ access, (who, access) ∈ lock.queue := by
  simp [awaits]

theorem notMem_entries (hh : ¬ lock.holds who = true) (ha : ¬ lock.awaits who = true) :
    who ∉ lock.entries.map (·.1) := by
  intro hmem
  obtain ⟨⟨n, access⟩, he, rfl⟩ := List.mem_map.1 hmem
  rcases List.mem_append.1 he with he | he
  · exact hh (holds_iff.2 ⟨access, he⟩)
  · exact ha (awaits_iff.2 ⟨access, he⟩)

/-- What asking for the lock can do: nothing, where who asks is entered already, and else one more
entry among the holders or at the end of the queue. -/
theorem acquire_cases (who : Nat) (access : Access) (lock : FairLock) :
    (lock.holds who = true ∧ lock.acquire who access = (true, lock)) ∨
    lock.acquire who access = (false, lock) ∨
    (who ∉ lock.entries.map (·.1) ∧ lock.admits access = true ∧
      lock.acquire who access =
        (true, { lock with holders := (who, access) :: lock.holders })) ∨
    (who ∉ lock.entries.map (·.1) ∧
      lock.acquire who access =
        (false, { lock with queue := lock.queue ++ [(who, access)] })) := by
  unfold acquire
  split
  · next hh => exact .inl ⟨hh, rfl⟩
  · next hh =>
    split
    · exact .inr (.inl rfl)
    · next ha =>
      split
      · next hfree =>
        exact .inr (.inr (.inl ⟨notMem_entries hh ha, (Bool.and_eq_true_iff.1 hfree).2, rfl⟩))
      · exact .inr (.inr (.inr ⟨notMem_entries hh ha, rfl⟩))

/-- Who holds the lock already is told so. -/
theorem acquire_of_holds (h : (who, access) ∈ lock.holders) (access' : Access) :
    lock.acquire who access' = (true, lock) := by
  unfold acquire
  rw [if_pos (holds_iff.2 ⟨access, h⟩)]

/-- Who waits keeps its place. -/
theorem Sound.acquire_of_awaits (hs : lock.Sound) (h : (who, access) ∈ lock.queue)
    (access' : Access) : lock.acquire who access' = (false, lock) := by
  have hholds : ¬ lock.holds who = true := by
    intro hholds
    obtain ⟨held, hheld⟩ := holds_iff.1 hholds
    have honce := hs.once
    rw [entries, List.map_append] at honce
    exact List.disjoint_of_nodup_append honce (List.mem_map_of_mem hheld)
      (List.mem_map.2 ⟨_, h, rfl⟩)
  unfold acquire
  rw [if_neg hholds, if_pos (awaits_iff.2 ⟨access, h⟩)]

/-- Who is new is let in, or waits behind all others. -/
theorem acquire_of_new (h : who ∉ lock.entries.map (·.1)) (access : Access) :
    (lock.queue = [] ∧ lock.admits access = true ∧
      lock.acquire who access = (true, { lock with holders := (who, access) :: lock.holders })) ∨
    ((lock.queue = [] → lock.holders ≠ []) ∧
      lock.acquire who access = (false, { lock with queue := lock.queue ++ [(who, access)] })) := by
  have hholds : ¬ lock.holds who = true := by
    intro hholds
    obtain ⟨held, hheld⟩ := holds_iff.1 hholds
    exact h (List.mem_map_of_mem (mem_entries_of_holds hheld))
  have hawaits : ¬ lock.awaits who = true := by
    intro hawaits
    obtain ⟨held, hheld⟩ := awaits_iff.1 hawaits
    exact h (List.mem_map_of_mem (List.mem_append_right _ hheld))
  unfold acquire
  rw [if_neg hholds, if_neg hawaits]
  split
  · next hfree =>
    obtain ⟨hqueue, hadmits⟩ := Bool.and_eq_true_iff.1 hfree
    exact .inl ⟨List.isEmpty_iff.1 hqueue, hadmits, rfl⟩
  · next hbusy =>
    refine .inr ⟨fun hqueue hholders => hbusy ?_, rfl⟩
    cases access <;> simp [hqueue, hholders, admits]

theorem Sound.acquire (hs : lock.Sound) : (lock.acquire who access).2.Sound := by
  rcases acquire_cases who access lock with ⟨-, h⟩ | h | ⟨hnew, hadm, h⟩ | ⟨hnew, h⟩
  · -- It was handed the lock before.
    rw [h]
    exact hs
  · -- It waits already.
    rw [h]
    exact hs
  · -- It is let in at once.
    rw [h]
    exact ⟨.cons hadm, List.nodup_cons.2 ⟨hnew, hs.once⟩⟩
  · -- It waits from now on, behind all others.
    rw [h]
    refine ⟨hs.exclusive, ?_⟩
    have hperm : ((lock.holders ++ (lock.queue ++ [(who, access)])).map (·.1)).Perm
        (who :: lock.entries.map (·.1)) := by
      rw [← List.append_assoc, List.map_append]
      exact List.perm_append_singleton _ _
    exact hperm.nodup_iff.2 (List.nodup_cons.2 ⟨hnew, hs.once⟩)

/-- Asking for the lock enters nobody else. -/
theorem mem_entries_of_acquire {h : Nat × Access}
    (hh : h ∈ (lock.acquire who access).2.entries) : h = (who, access) ∨ h ∈ lock.entries := by
  rcases acquire_cases who access lock with ⟨-, heq⟩ | heq | ⟨-, -, heq⟩ | ⟨-, heq⟩
  · rw [heq] at hh
    exact .inr hh
  · rw [heq] at hh
    exact .inr hh
  · rw [heq] at hh
    exact List.mem_cons.1 hh
  · rw [heq] at hh
    have hmem : h ∈ lock.holders ++ lock.queue ++ [(who, access)] := by
      rw [List.append_assoc]
      exact hh
    rcases List.mem_append.1 hmem with hmem | hmem
    · exact .inr hmem
    · exact .inl (List.mem_singleton.1 hmem)

theorem holders_subset_acquire : lock.holders ⊆ (lock.acquire who access).2.holders := by
  rcases acquire_cases who access lock with ⟨-, h⟩ | h | ⟨-, -, h⟩ | ⟨-, h⟩
  · rw [h]
    exact List.Subset.refl _
  · rw [h]
    exact List.Subset.refl _
  · rw [h]
    exact List.subset_cons_self _ _
  · rw [h]
    exact List.Subset.refl _

/-- Who is told to have the lock holds it. -/
theorem holds_of_acquire (h : (lock.acquire who access).1 = true) :
    ∃ held, (who, held) ∈ (lock.acquire who access).2.holders := by
  rcases acquire_cases who access lock with ⟨hh, heq⟩ | heq | ⟨-, -, heq⟩ | ⟨-, heq⟩
  · rw [heq]
    exact holds_iff.1 hh
  · rw [heq] at h
    cases h
  · rw [heq]
    exact ⟨access, List.mem_cons_self⟩
  · rw [heq] at h
    cases h

/-! ## Reading at once -/

theorem tryShared_cases (who : Nat) (lock : FairLock) :
    (lock.admits .shared = true ∧
      lock.tryShared who = (true, { lock with holders := (who, .shared) :: lock.holders })) ∨
    lock.tryShared who = (false, lock) := by
  unfold tryShared
  split
  · next hfree => exact .inl ⟨(Bool.and_eq_true_iff.1 hfree).2, rfl⟩
  · exact .inr rfl

theorem Sound.tryShared (hs : lock.Sound) (hnew : ∀ access, (who, access) ∉ lock.entries) :
    (lock.tryShared who).2.Sound := by
  rcases tryShared_cases who lock with ⟨hadm, h⟩ | h
  · rw [h]
    refine ⟨.cons hadm, List.nodup_cons.2 ⟨fun hmem => ?_, hs.once⟩⟩
    obtain ⟨⟨n, access⟩, he, rfl⟩ := List.mem_map.1 hmem
    exact hnew access he
  · rw [h]
    exact hs

theorem mem_entries_of_tryShared {h : Nat × Access} (hh : h ∈ (lock.tryShared who).2.entries) :
    h = (who, .shared) ∨ h ∈ lock.entries := by
  rcases tryShared_cases who lock with ⟨-, heq⟩ | heq
  · rw [heq] at hh
    exact List.mem_cons.1 hh
  · rw [heq] at hh
    exact .inr hh

theorem holders_subset_tryShared : lock.holders ⊆ (lock.tryShared who).2.holders := by
  rcases tryShared_cases who lock with ⟨-, h⟩ | h
  · rw [h]
    exact List.subset_cons_self _ _
  · rw [h]
    exact List.Subset.refl _

end Caretaker.Crew.FairLock
