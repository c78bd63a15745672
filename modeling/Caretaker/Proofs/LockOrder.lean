import Caretaker.Proofs.FairLock

/-!
# The order in the queue of the lock

Who waits for the lock is never overtaken.  Whatever others ask for, nobody comes before it who was
not there already; and each time somebody gives the lock back there is one less to wait for.

Main definitions:

- `Attended`: nobody waits for a lock that nobody holds.
- `ahead`: how many have to give the lock back first.
- `Nearer`: who waited was let in, or waits for no more than before.

Main statements:

- `nearer_acquire`, `nearer_tryShared`, `nearer_release`: who waits comes nearer by every request.
-/

namespace Caretaker.Crew.FairLock

variable {lock : FairLock} {who : Nat} {access : Access}

/-! ## A lock that is attended to -/

/-- Whether nobody waits for a lock that nobody holds. -/
def Attended (lock : FairLock) : Prop := lock.holders = [] → lock.queue = []

theorem attended_empty : Attended {} := fun _ => rfl

theorem Attended.acquire (h : lock.Attended) : (lock.acquire who access).2.Attended := by
  rcases acquire_cases who access lock with ⟨-, heq⟩ | heq | ⟨-, -, heq⟩ | ⟨hnew, heq⟩
  · rw [heq]
    exact h
  · rw [heq]
    exact h
  · rw [heq]
    intro hnone
    cases hnone
  · -- Nobody new has to wait for a lock that is free.
    rcases acquire_of_new hnew access with ⟨-, -, heq'⟩ | ⟨hbusy, -⟩
    · rw [heq] at heq'
      cases heq'
    · rw [heq]
      intro hnone
      exact absurd hnone (hbusy (h hnone))

theorem Attended.tryShared (h : lock.Attended) : (lock.tryShared who).2.Attended := by
  rcases tryShared_cases who lock with ⟨-, heq⟩ | heq
  · rw [heq]
    intro hnone
    cases hnone
  · rw [heq]
    exact h

theorem attended_release : (lock.release who).Attended := fun hnone => queue_handOver hnone

/-- Who is new has a lock that nobody holds at once. -/
theorem Attended.acquire_of_free (h : lock.Attended) (hfree : lock.holders = []) (who : Nat)
    (access : Access) : (lock.acquire who access).1 = true := by
  have hnew : who ∉ lock.entries.map (·.1) := by
    rw [entries, hfree, h hfree]
    exact List.not_mem_nil
  rcases acquire_of_new hnew access with ⟨-, -, heq⟩ | ⟨hbusy, -⟩
  · rw [heq]
  · exact absurd hfree (hbusy (h hfree))

/-- Who is not let in waits from then on. -/
theorem awaits_of_acquire (h : (lock.acquire who access).1 = false) :
    (lock.acquire who access).2.awaits who = true := by
  unfold acquire at h ⊢
  split at h
  · cases h
  · next hholds =>
    rw [if_neg hholds]
    split at h
    · next hawaits =>
      rw [if_pos hawaits]
      exact hawaits
    · next hawaits =>
      rw [if_neg hawaits]
      split at h
      · cases h
      · next hbusy =>
        rw [if_neg hbusy]
        exact awaits_iff.2 ⟨access, List.mem_append_right _ (List.mem_singleton.2 rfl)⟩

/-! ## Who comes first -/

/-- How many hold the lock, or wait for it before somebody who waits. -/
def ahead (who : Nat) (lock : FairLock) : Nat :=
  lock.holders.length + (lock.queue.takeWhile (·.1 ≠ who)).length

/-- Whether somebody who waited was let in, or has no more to wait for than before, and less if
somebody gave the lock back. -/
def Nearer (who : Nat) (lock lock' : FairLock) : Prop :=
  lock'.holds who = true ∨
    lock'.awaits who = true ∧ lock'.ahead who ≤ lock.ahead who ∧
      (lock.holders ⊆ lock'.holders ∨ lock'.ahead who < lock.ahead who)

theorem nearer_self (h : lock.awaits who = true) : Nearer who lock lock :=
  .inr ⟨h, Nat.le_refl _, .inl (List.Subset.refl _)⟩

/-- Somebody at the end of a queue does not come before those who wait already. -/
theorem takeWhile_concat {queue : List (Nat × Access)} (h : (who, access) ∈ queue)
    (e : Nat × Access) :
    (queue ++ [e]).takeWhile (·.1 ≠ who) = queue.takeWhile (·.1 ≠ who) := by
  induction queue with
  | nil => cases h
  | cons head queue ih =>
    by_cases heq : head.1 = who
    · simp [heq]
    · have hqueue : (who, access) ∈ queue := by
        rcases List.mem_cons.1 h with rfl | hqueue
        · exact absurd rfl heq
        · exact hqueue
      simpa [heq] using ih hqueue

/-- Who waits is not passed by anybody who asks for the lock. -/
theorem nearer_acquire (h : lock.awaits who = true) (other : Nat) (access : Access) :
    Nearer who lock (lock.acquire other access).2 := by
  obtain ⟨access', hwho⟩ := awaits_iff.1 h
  rcases acquire_cases other access lock with ⟨-, heq⟩ | heq | ⟨hnew, -, heq⟩ | ⟨-, heq⟩
  · rw [heq]
    exact nearer_self h
  · rw [heq]
    exact nearer_self h
  · -- Nobody new is let in while somebody waits.
    rcases acquire_of_new hnew access with ⟨hempty, -⟩ | ⟨-, heq'⟩
    · rw [hempty] at hwho
      cases hwho
    · rw [heq] at heq'
      cases heq'
  · rw [heq]
    have hawaits : FairLock.awaits { lock with queue := lock.queue ++ [(other, access)] } who :=
      awaits_iff.2 ⟨access', List.mem_append_left _ hwho⟩
    refine .inr ⟨hawaits, ?_, .inl (List.Subset.refl _)⟩
    show lock.holders.length + ((lock.queue ++ [(other, access)]).takeWhile (·.1 ≠ who)).length ≤ _
    rw [takeWhile_concat hwho]
    exact Nat.le_refl _

/-- Who waits is not passed by anybody who would read at once. -/
theorem nearer_tryShared (h : lock.awaits who = true) (other : Nat) :
    Nearer who lock (lock.tryShared other).2 := by
  have hbusy : ¬ lock.isReadable = true := by
    intro hreadable
    obtain ⟨access, hwho⟩ := awaits_iff.1 h
    have hempty := List.isEmpty_iff.1 (Bool.and_eq_true_iff.1 hreadable).1
    rw [hempty] at hwho
    cases hwho
  rw [tryShared, if_neg hbusy]
  exact nearer_self h

/-- When the lock is handed over, those who waited before somebody become holders one by one, and
that leaves as many ahead of it. -/
theorem ahead_handOver (holders : List (Nat × Access)) {queue : List (Nat × Access)}
    (h : (who, access) ∈ queue) :
    (handOver holders queue).holds who = true ∨
      (handOver holders queue).awaits who = true ∧
        (handOver holders queue).ahead who =
          holders.length + (queue.takeWhile (·.1 ≠ who)).length := by
  induction queue generalizing holders with
  | nil => cases h
  | cons head queue ih =>
    rw [handOver]
    split
    · by_cases heq : head.1 = who
      · have hmem : (who, head.2) ∈ (handOver ((head.1, head.2) :: holders) queue).holders := by
          rw [← heq]
          exact holders_subset_handOver _ _ List.mem_cons_self
        exact .inl (holds_iff.2 ⟨_, hmem⟩)
      · have hqueue : (who, access) ∈ queue := by
          rcases List.mem_cons.1 h with rfl | hqueue
          · exact absurd rfl heq
          · exact hqueue
        rcases ih ((head.1, head.2) :: holders) hqueue with hholds | ⟨hawaits, hahead⟩
        · exact .inl hholds
        · refine .inr ⟨hawaits, ?_⟩
          rw [hahead, List.takeWhile_cons_of_pos (by simpa using heq), List.length_cons,
            List.length_cons]
          omega
    · exact .inr ⟨awaits_iff.2 ⟨access, h⟩, rfl⟩

/-- Who waits has one less to wait for when a holder gives the lock back. -/
theorem nearer_release (h : lock.awaits who = true) (other : Nat) :
    Nearer who lock (lock.release other) := by
  obtain ⟨access, hwho⟩ := awaits_iff.1 h
  rcases ahead_handOver (lock.holders.filter (·.1 ≠ other)) hwho with hholds | ⟨hawaits, hahead⟩
  · exact .inl hholds
  · have hle : (lock.holders.filter (·.1 ≠ other)).length ≤ lock.holders.length :=
      List.length_filter_le _ _
    have hsum : (lock.release other).ahead who =
        (lock.holders.filter (·.1 ≠ other)).length +
          (lock.queue.takeWhile (·.1 ≠ who)).length := hahead
    refine .inr ⟨hawaits, ?_, ?_⟩
    · rw [hsum, ahead]
      omega
    · by_cases hkept : (lock.holders.filter (·.1 ≠ other)).length = lock.holders.length
      · -- Nobody left.
        rw [release, List.filter_eq_self.2 (List.length_filter_eq_length_iff.1 hkept)]
        exact .inl (holders_subset_handOver _ _)
      · rw [hsum, ahead]
        exact .inr (by omega)

/-- Who waited, and goes on to wait, is nearer after all that was between. -/
theorem Nearer.trans {lock' lock'' : FairLock} (h : Nearer who lock lock')
    (h' : Nearer who lock' lock'') : lock'.holds who = true ∨ Nearer who lock lock'' := by
  rcases h with hholds | ⟨-, hle, hmoved⟩
  · exact .inl hholds
  · refine .inr ?_
    rcases h' with hholds' | ⟨hawaits', hle', hmoved'⟩
    · exact .inl hholds'
    · refine .inr ⟨hawaits', Nat.le_trans hle' hle, ?_⟩
      rcases hmoved with hsubset | hlt
      · rcases hmoved' with hsubset' | hlt'
        · exact .inl (List.Subset.trans hsubset hsubset')
        · exact .inr (by omega)
      · exact .inr (by omega)

/-! ## One request -/

/-- What a request of somebody can make of the lock. -/
inductive Touches (who : Nat) (lock : FairLock) : FairLock → Prop where
  | leaves : Touches who lock lock
  | acquires (access : Access) : Touches who lock (lock.acquire who access).2
  | tries : Touches who lock (lock.tryShared who).2
  | releases : Touches who lock (lock.release who)

theorem Touches.attended {lock' : FairLock} (h : Touches who lock lock') (hlock : lock.Attended) :
    lock'.Attended := by
  cases h with
  | leaves => exact hlock
  | acquires access => exact hlock.acquire
  | tries => exact hlock.tryShared
  | releases => exact attended_release

theorem Touches.nearer {lock' : FairLock} {other : Nat} (h : Touches other lock lock')
    (hwho : lock.awaits who = true) : Nearer who lock lock' := by
  cases h with
  | leaves => exact nearer_self hwho
  | acquires access => exact nearer_acquire hwho other access
  | tries => exact nearer_tryShared hwho other
  | releases => exact nearer_release hwho other

/-- Nobody loses the lock by a request of somebody else. -/
theorem Touches.holders {lock' : FairLock} (h : Touches who lock lock') {e : Nat × Access}
    (hmem : e ∈ lock.holders) (hne : e.1 ≠ who) : e ∈ lock'.holders := by
  cases h with
  | leaves => exact hmem
  | acquires access => exact holders_subset_acquire hmem
  | tries => exact holders_subset_tryShared hmem
  | releases => exact holders_release_of_ne hmem hne

end Caretaker.Crew.FairLock
