import Mathlib.Data.Nat.Pairing
import Caretaker.Proofs.Alone
import Caretaker.Proofs.Docket
import Caretaker.Proofs.LockOrder

/-!
# Every operation finishes

Nobody waits for ever in a crew.  Whoever holds the lock is in a call or goes on, and who holds it
comes to its end by a bounded number of turns of its own.  Who waits is never overtaken, so there is
less to wait for each time a holder comes to its end.  All this needs no more than that calls are
answered at last and that everybody has its turn again and again; more operations may begin all the
time.

Main definitions:

- `Session.InCall`, `Session.CanGoOn`: what an operation under way is up to.
- `Docket.along`, `Docket.Fair`: a docket along a schedule, and the schedules that let everybody go
  on.

Main statements:

- `Session.Invariant.progress`: as long as anybody is under way, somebody is in a call or can go on.
- `Docket.Fair.ends`: everybody comes to its end.
- `operations_finish`: there is no deadlock, and every operation ends with one result.
-/

namespace Caretaker.Crew

open Container (Backend)
open Script

/-! ## Who can go on -/

namespace Session

variable {ρ : Type}

/-- Whether an operation under way is in a call. -/
def InCall (who : Nat) (s : Session ρ) : Prop :=
  ∃ op c next, s.underway who = some ⟨op, Script.ask (S := signature) (.call c) next⟩

variable [Backend ρ]

/-- Whether what an operation under way asks for next is answered. -/
def CanGoOn (who : Nat) (s : Session ρ) : Prop :=
  ∃ op r next, s.underway who = some ⟨op, Script.ask (S := signature) r next⟩ ∧
    (s.world.attempt who r).1 ≠ none

variable {settings : Settings} {outside : ρ → ρ → Prop}
  {holds : List Turn → Roster → ρ → Prop} {s : Session ρ} {busy : Option Nat} {who : Nat}
  {access : Access}

/-- A request that is not about the lock is answered unless it is a call. -/
theorem attempt_ne_none {r : Request} (w : World ρ) (hlocking : r.isLocking = false)
    (hcall : ∀ c, r ≠ .call c) : (w.attempt who r).1 ≠ none := by
  cases r with
  | lock => cases hlocking
  | tryLock => cases hlocking
  | unlock => cases hlocking
  | call c => exact absurd rfl (hcall c)
  | _ => exact Option.some_ne_none _

/-- Who holds the lock was let in just now, or is at work under it. -/
theorem Invariant.cases_of_holds (h : Invariant settings outside holds s busy)
    (hholds : (who, access) ∈ s.world.lock.holders) :
    ∃ op, (op.access = some access ∧ s.underway who = some ⟨op, op.transaction settings⟩) ∨
      ∃ body, s.underway who = some ⟨op, thenUnlock body⟩ ∧
        ∀ r next, body = Script.ask (S := signature) r next → r.isLocking = false := by
  have hentry := FairLock.mem_entries_of_holds hholds
  by_cases hbusy : busy = some who
  · obtain ⟨op, body, account, roster, b, hupdating⟩ := h.updating_of_busy hbusy
    refine ⟨op, .inr ⟨body, hupdating.pending, ?_⟩⟩
    rintro r next rfl
    exact Account.isLocking_of_rule hupdating.ensures
  · have hstands := h.others who hbusy
    generalize s.underway who = pending at hstands
    cases hstands with
    | absent hout => exact absurd hentry (hout access)
    | asking op hentries => exact ⟨op, .inl ⟨hentries access hentry, rfl⟩⟩
    | tending op body access' hop hholds' hbody =>
      refine ⟨op, .inr ⟨body, rfl, ?_⟩⟩
      rintro r next rfl
      exact isLocking_of_tends hbody.1
    | glancing op f hop hout => exact absurd hentry (hout access)

/-- Who holds the lock is in a call or goes on. -/
theorem Invariant.goes_of_holds (h : Invariant settings outside holds s busy)
    (hholds : (who, access) ∈ s.world.lock.holders) : s.InCall who ∨ s.CanGoOn who := by
  obtain ⟨op, ⟨haccess, hwho⟩ | ⟨body, hwho, hbody⟩⟩ := h.cases_of_holds hholds
  · rw [Operation.transaction_of_access haccess] at hwho
    refine .inr ⟨op, _, _, hwho, ?_⟩
    rw [attempt_lock, FairLock.acquire_of_holds hholds]
    exact Option.some_ne_none _
  · cases body with
    | done result => exact .inr ⟨op, _, _, hwho, Option.some_ne_none _⟩
    | ask r next =>
      by_cases hcall : ∃ c, r = .call c
      · obtain ⟨c, rfl⟩ := hcall
        exact .inl ⟨op, c, _, hwho⟩
      · have hanswered : (s.world.attempt who r).1 ≠ none :=
          attempt_ne_none s.world (hbody r next rfl) fun c heq => hcall ⟨c, heq⟩
        exact .inr ⟨op, r, _, hwho, hanswered⟩

/-- Who is under way while nobody holds the lock goes on. -/
theorem Invariant.goes_of_free (h : Invariant settings outside holds s busy)
    (hattended : s.world.lock.Attended) (hfree : s.world.lock.holders = [])
    (hwho : s.underway who ≠ none) : s.CanGoOn who := by
  have hnobody : ∀ {access}, (who, access) ∉ s.world.lock.holders := by
    intro access hmem
    rw [hfree] at hmem
    cases hmem
  have hbusy : busy ≠ some who := by
    intro hbusy
    obtain ⟨op, body, account, roster, b, hupdating⟩ := h.updating_of_busy hbusy
    exact hnobody hupdating.alone
  have hstands := h.others who hbusy
  generalize hpending : s.underway who = pending at hstands hwho
  cases hstands with
  | absent => exact absurd rfl hwho
  | asking op hentry =>
    cases haccess : op.access with
    | some access =>
      rw [Operation.transaction_of_access haccess] at hpending
      refine ⟨op, _, _, hpending, ?_⟩
      rw [attempt_lock, hattended.acquire_of_free hfree]
      exact Option.some_ne_none _
    | none =>
      cases op with
      | roleStatuses =>
        rw [Operation.transaction_roleStatuses] at hpending
        exact ⟨_, _, _, hpending, Option.some_ne_none _⟩
      | _ => cases haccess
  | tending op body access hop hholds => exact absurd hholds hnobody
  | glancing op f => exact ⟨op, _, _, hpending, Option.some_ne_none _⟩

/-- As long as anybody is under way, somebody is in a call or goes on. -/
theorem Invariant.progress (h : Invariant settings outside holds s busy)
    (hattended : s.world.lock.Attended) (hwho : s.underway who ≠ none) :
    ∃ other, s.InCall other ∨ s.CanGoOn other := by
  cases hholders : s.world.lock.holders with
  | nil => exact ⟨who, .inr (h.goes_of_free hattended hholders hwho)⟩
  | cons holder holders =>
    have hholds : (holder.1, holder.2) ∈ s.world.lock.holders := by
      rw [hholders]
      exact List.mem_cons_self
    exact ⟨holder.1, h.goes_of_holds hholds⟩

end Session

namespace Docket

open FairLock (Touches Nearer)

variable {ρ : Type} [Backend ρ] {settings : Settings} {b : ρ} {d : Docket ρ} {who other n : Nat}
  {op : Operation} {access : Access}

/-! ## What happenings make of the lock -/

theorem gated_attempt (w : World ρ) (who : Nat) (r : Request) :
    (w.attempt who r).2.gated = w.gated := by
  cases r with
  | call c =>
    simp only [World.attempt]
    split
    · rfl
    · rfl
  | _ => rfl

theorem touches_attempt (w : World ρ) (who : Nat) (r : Request) :
    Touches who w.lock (w.attempt who r).2.lock := by
  cases r with
  | lock access => exact .acquires access
  | tryLock => exact .tries
  | unlock => exact .releases
  | call c =>
    simp only [World.attempt]
    split
    · exact .leaves
    · exact .leaves
  | _ => exact .leaves

/-- The lock is left as it is unless it is somebody's turn. -/
theorem touches_step (settings : Settings) (d : Docket ρ) (happening : Happening ρ) :
    (d.step settings happening).world.lock = d.world.lock ∨
      ∃ who, happening = .goesOn who ∧
        Touches who d.world.lock (d.step settings happening).world.lock := by
  cases happening with
  | begins op => exact .inl rfl
  | gates gated => exact .inl rfl
  | moves backend => exact .inl rfl
  | goesOn who =>
    refine .inr ⟨who, rfl, ?_⟩
    rcases world_goesOn settings d who with heq | ⟨r, heq⟩
    · rw [heq]
      exact .leaves
    · rw [heq]
      exact touches_attempt d.world who r

theorem attended_step (h : d.world.lock.Attended) (happening : Happening ρ) :
    (d.step settings happening).world.lock.Attended := by
  rcases touches_step settings d happening with heq | ⟨who, -, htouches⟩
  · rwa [heq]
  · exact htouches.attended h

theorem attended_run (h : d.world.lock.Attended) (happenings : List (Happening ρ)) :
    (d.run settings happenings).world.lock.Attended := by
  induction happenings generalizing d with
  | nil => exact h
  | cons happening happenings ih => exact ih (attended_step h happening)

theorem nearer_step (h : d.world.lock.awaits who = true) (happening : Happening ρ) :
    Nearer who d.world.lock (d.step settings happening).world.lock := by
  rcases touches_step settings d happening with heq | ⟨other, -, htouches⟩
  · rw [heq]
    exact FairLock.nearer_self h
  · exact htouches.nearer h

theorem holders_step {happening : Happening ρ} (hne : happening ≠ .goesOn who)
    (hmem : (who, access) ∈ d.world.lock.holders) :
    (who, access) ∈ (d.step settings happening).world.lock.holders := by
  rcases touches_step settings d happening with heq | ⟨other, rfl, htouches⟩
  · rwa [heq]
  · refine htouches.holders hmem fun heq => hne ?_
    rw [← heq]

/-! ## What happenings make of others -/

/-- What somebody is up to, and what it ended with, changes by its own turns only. -/
theorem step_of_ne (settings : Settings) (hbegun : who < d.begun.length)
    {happening : Happening ρ} (hne : happening ≠ .goesOn who) :
    (d.step settings happening).underway who = d.underway who ∧
      (d.step settings happening).resultsOf who = d.resultsOf who := by
  cases happening with
  | begins op =>
    have hother : who ≠ d.begun.length := by omega
    exact ⟨Function.update_of_ne hother _ _, rfl⟩
  | gates gated => exact ⟨rfl, rfl⟩
  | moves backend => exact ⟨rfl, rfl⟩
  | goesOn other =>
    refine goesOn_of_ne settings d ?_
    rintro rfl
    exact hne rfl

/-- Who ended stays so. -/
theorem step_of_none (settings : Settings) (hbegun : who < d.begun.length)
    (hnone : d.underway who = none) (happening : Happening ρ) :
    (d.step settings happening).underway who = none ∧
      (d.step settings happening).resultsOf who = d.resultsOf who := by
  by_cases hne : happening = .goesOn who
  · subst hne
    have hsame : d.step settings (.goesOn who) = d := by simp only [step, hnone]
    rw [hsame]
    exact ⟨hnone, rfl⟩
  · obtain ⟨hunderway, hresults⟩ := step_of_ne settings hbegun hne
    exact ⟨hunderway.trans hnone, hresults⟩

theorem length_begun_step (d : Docket ρ) (happening : Happening ρ) :
    d.begun.length ≤ (d.step settings happening).begun.length := by
  cases happening with
  | begins op =>
    have hlength : (d.step settings (.begins op)).begun.length = d.begun.length + 1 :=
      List.length_append
    omega
  | gates gated => exact Nat.le_refl _
  | moves backend => exact Nat.le_refl _
  | goesOn who =>
    exact Nat.le_of_eq (congrArg List.length (begun_goesOn settings d who).symm)

/-! ## Schedules -/

/-- A docket after the first `n` happenings of a schedule. -/
def along (settings : Settings) (schedule : Nat → Happening ρ) (d : Docket ρ) : Nat → Docket ρ
  | 0 => d
  | n + 1 => (d.along settings schedule n).step settings (schedule n)

/-- Whether no call is held back by a schedule, and everybody under way has its turn again and
again. -/
structure Fair (settings : Settings) (schedule : Nat → Happening ρ) (d : Docket ρ) : Prop where
  gates : ∀ n gated, schedule n = .gates gated → gated = []
  turns : ∀ n who, (d.along settings schedule n).underway who ≠ none →
    ∃ m, n ≤ m ∧ schedule m = .goesOn who

/-- A docket in order on which nothing is held back. -/
structure Free (settings : Settings) (b : ρ) (d : Docket ρ) : Prop where
  booked : d.Booked settings b
  attended : d.world.lock.Attended
  gated : d.world.gated = []

theorem Free.step (h : d.Free settings b) {happening : Happening ρ}
    (hgates : ∀ gated, happening = .gates gated → gated = []) :
    (d.step settings happening).Free settings b where
  booked := h.booked.step happening
  attended := attended_step h.attended happening
  gated := by
    cases happening with
    | begins op => exact h.gated
    | moves backend => exact h.gated
    | gates gated => exact hgates gated rfl
    | goesOn who =>
      rcases world_goesOn settings d who with heq | ⟨r, heq⟩
      · rw [heq]
        exact h.gated
      · rw [heq, gated_attempt]
        exact h.gated

section Schedules

variable {schedule : Nat → Happening ρ}

theorem Fair.free (hfair : d.Fair settings schedule) (h : d.Free settings b) (n : Nat) :
    (d.along settings schedule n).Free settings b := by
  induction n with
  | zero => exact h
  | succ n ih => exact ih.step (hfair.gates n)

/-- Only who was begun is under way. -/
theorem Free.begun (h : d.Free settings b) (hwho : d.underway who ≠ none) :
    who < d.begun.length := by
  by_contra hnew
  exact hwho (h.booked.numbered who (Nat.le_of_not_lt hnew)).1

/-- Who ended stays as it is. -/
theorem along_of_none {m : Nat} (hnone : (d.along settings schedule n).underway who = none)
    (hbegun : who < (d.along settings schedule n).begun.length) (hle : n ≤ m) :
    (d.along settings schedule m).underway who = none ∧
      who < (d.along settings schedule m).begun.length ∧
      (d.along settings schedule m).resultsOf who =
        (d.along settings schedule n).resultsOf who := by
  induction hle with
  | refl => exact ⟨hnone, hbegun, rfl⟩
  | @step m _ ih =>
    obtain ⟨hnone', hbegun', hresults⟩ := ih
    obtain ⟨hunderway, hsame⟩ := step_of_none settings hbegun' hnone' (schedule m)
    exact ⟨hunderway, Nat.lt_of_lt_of_le hbegun' (length_begun_step _ _), hsame.trans hresults⟩

theorem length_begun_along (schedule : Nat → Happening ρ) {m : Nat} (hle : n ≤ m) :
    (d.along settings schedule n).begun.length ≤ (d.along settings schedule m).begun.length := by
  induction hle with
  | refl => exact Nat.le_refl _
  | step _ ih => exact Nat.le_trans ih (length_begun_step _ _)

/-- Until its next turn nothing changes for an operation, except that it may be handed the lock. -/
theorem Fair.next (hfair : d.Fair settings schedule) (h : d.Free settings b)
    (hwho : (d.along settings schedule n).underway who ≠ none) :
    ∃ m, n ≤ m ∧ schedule m = .goesOn who ∧
      (d.along settings schedule m).underway who = (d.along settings schedule n).underway who ∧
      ∀ access, (who, access) ∈ (d.along settings schedule n).world.lock.holders →
        (who, access) ∈ (d.along settings schedule m).world.lock.holders := by
  obtain ⟨m, hle, hturn⟩ := hfair.turns n who hwho
  obtain ⟨k, rfl⟩ := Nat.exists_eq_add_of_le hle
  clear hle
  -- By induction on the time until the turn that is known.
  induction k generalizing n with
  | zero => exact ⟨n, Nat.le_refl n, hturn, rfl, fun _ => id⟩
  | succ k ih =>
    by_cases hnow : schedule n = .goesOn who
    · exact ⟨n, Nat.le_refl n, hnow, rfl, fun _ => id⟩
    · have hstill : (d.along settings schedule (n + 1)).underway who =
          (d.along settings schedule n).underway who :=
        (step_of_ne settings ((hfair.free h n).begun hwho) hnow).1
      rw [← hstill] at hwho
      obtain ⟨m, hle, hturn, hsame, hholds⟩ := ih hwho (by rwa [Nat.add_right_comm])
      refine ⟨m, Nat.le_of_succ_le hle, hturn, hsame.trans hstill, fun access hmem => ?_⟩
      exact hholds access (holders_step hnow hmem)

/-! ## Who holds the lock -/

/-- What an answer makes of a docket, it makes of its session. -/
theorem toSession_goesOn (settings : Settings) {r : Request} {next : r.Answer → Transaction Result}
    {answer : r.Answer} {w : World ρ}
    (hwho : d.underway who = some ⟨op, Script.ask (S := signature) r next⟩)
    (hattempt : d.world.attempt who r = (some answer, w)) :
    (d.step settings (.goesOn who)).toSession = d.toSession.goOn who op (next answer) w := by
  rw [goesOn_of_answer hwho hattempt]

/-- Who is answered ended, or goes on with what the answer leads to. -/
theorem underway_goesOn (settings : Settings) {r : Request} {next : r.Answer → Transaction Result}
    {answer : r.Answer} {w : World ρ}
    (hwho : d.underway who = some ⟨op, Script.ask (S := signature) r next⟩)
    (hattempt : d.world.attempt who r = (some answer, w)) :
    (d.step settings (.goesOn who)).underway who = none ∨
      (d.step settings (.goesOn who)).underway who = some ⟨op, next answer⟩ := by
  rw [toSession_goesOn settings hwho hattempt]
  cases next answer with
  | done result => exact .inl (Function.update_self _ _ _)
  | ask r' next' => exact .inr (Function.update_self _ _ _)

/-- A turn of who holds the lock ends the operation, or brings it on by one answer. -/
theorem Free.turn_of_holds (h : d.Free settings b) {r : Request}
    {next : r.Answer → Transaction Result}
    (hwho : d.underway who = some ⟨op, Script.ask (S := signature) r next⟩)
    (hholds : (who, access) ∈ d.world.lock.holders) :
    (d.step settings (.goesOn who)).underway who = none ∨
      ∃ answer, (d.step settings (.goesOn who)).underway who = some ⟨op, next answer⟩ ∧
        (who, access) ∈ (d.step settings (.goesOn who)).world.lock.holders := by
  obtain ⟨busy, hinvariant⟩ := h.booked.reachable.invariant (kept_true _ _) trivial
  obtain ⟨op', ⟨haccess, hpending⟩ | ⟨body, hpending, hbody⟩⟩ :=
    hinvariant.cases_of_holds hholds
  · -- It learns that it has the lock.
    obtain ⟨rfl, hrest⟩ := Pending.mk.inj (Option.some.inj (hpending.symm.trans hwho))
    rw [Operation.transaction_of_access haccess] at hrest
    cases hrest
    have hattempt : d.world.attempt who (.lock access) = (some (), d.world) := by
      rw [Session.attempt_lock, FairLock.acquire_of_holds hholds]
      rfl
    rcases underway_goesOn settings hwho hattempt with hnone | hsome
    · exact .inl hnone
    · refine .inr ⟨(), hsome, ?_⟩
      rw [toSession_goesOn settings hwho hattempt, Session.world_goOn]
      exact hholds
  · obtain ⟨rfl, hrest⟩ := Pending.mk.inj (Option.some.inj (hpending.symm.trans hwho))
    cases body with
    | done result =>
      -- It gives the lock back.
      rw [thenUnlock_done] at hrest
      cases hrest
      have hattempt : d.world.attempt who .unlock =
          (some (), { d.world with lock := d.world.lock.release who }) := rfl
      rw [toSession_goesOn settings hwho hattempt]
      exact .inl (Function.update_self _ _ _)
    | ask _ next' =>
      rw [thenUnlock_ask] at hrest
      cases hrest
      have hlocking : r.isLocking = false := hbody r next' rfl
      have hattempt : d.world.attempt who r = (some (d.world.answer r).1, (d.world.answer r).2) :=
        World.attempt_of_answer h.gated hlocking
      rcases underway_goesOn settings hwho hattempt with hnone | hsome
      · exact .inl hnone
      · refine .inr ⟨_, hsome, ?_⟩
        rw [toSession_goesOn settings hwho hattempt, Session.world_goOn, World.answer_lock]
        exact hholds

/-- Who holds the lock is under way. -/
theorem Free.pending_of_holds (h : d.Free settings b)
    (hholds : (who, access) ∈ d.world.lock.holders) :
    ∃ op r next, d.underway who = some ⟨op, Script.ask (S := signature) r next⟩ := by
  obtain ⟨busy, hinvariant⟩ := h.booked.reachable.invariant (kept_true _ _) trivial
  obtain ⟨op, ⟨haccess, hwho⟩ | ⟨body, hwho, -⟩⟩ := hinvariant.cases_of_holds hholds
  · rw [Operation.transaction_of_access haccess] at hwho
    exact ⟨op, _, _, hwho⟩
  · cases body with
    | done result => exact ⟨op, _, _, hwho⟩
    | ask r next => exact ⟨op, _, _, hwho⟩

/-- Who holds the lock comes to its end. -/
theorem Fair.ends_of_holds (hfair : d.Fair settings schedule) (h : d.Free settings b)
    (hholds : (who, access) ∈ (d.along settings schedule n).world.lock.holders) :
    ∃ m, n ≤ m ∧ (d.along settings schedule m).underway who = none := by
  obtain ⟨op, r, next, hwho⟩ := (hfair.free h n).pending_of_holds hholds
  generalize hrest : Script.ask (S := signature) r next = rest at hwho
  clear hrest
  -- By induction on what it still does, from each of its turns to the next.
  induction rest generalizing n with
  | done result =>
    obtain ⟨op', r', next', hwho'⟩ := (hfair.free h n).pending_of_holds hholds
    rw [hwho] at hwho'
    cases hwho'
  | ask r next ih =>
    have hsome : (d.along settings schedule n).underway who ≠ none := by
      rw [hwho]
      exact Option.some_ne_none _
    obtain ⟨m, hle, hturn, hsame, hstays⟩ := hfair.next h hsome
    have hsucc : (d.along settings schedule m).step settings (.goesOn who) =
        d.along settings schedule (m + 1) := by rw [along, hturn]
    have hmoved := (hfair.free h m).turn_of_holds (hsame.trans hwho) (hstays access hholds)
    rw [hsucc] at hmoved
    rcases hmoved with hnone | ⟨answer, hnext, hkeeps⟩
    · exact ⟨m + 1, Nat.le_succ_of_le hle, hnone⟩
    · obtain ⟨l, hle', hnone⟩ := ih answer hkeeps hnext
      exact ⟨l, Nat.le_trans (Nat.le_succ_of_le hle) hle', hnone⟩

/-! ## Who waits for the lock -/

/-- Who waits for the lock is let in at some time, or is nearer to it. -/
theorem nearer_along (schedule : Nat → Happening ρ)
    (hawaits : (d.along settings schedule n).world.lock.awaits who = true) {m : Nat}
    (hle : n ≤ m) :
    (∃ l, n ≤ l ∧ (d.along settings schedule l).world.lock.holds who = true) ∨
      Nearer who (d.along settings schedule n).world.lock
        (d.along settings schedule m).world.lock := by
  induction hle with
  | refl => exact .inr (FairLock.nearer_self hawaits)
  | @step m hle ih =>
    rcases ih with hlet | hnearer
    · exact .inl hlet
    · rcases hnearer with hholds | hwaiting
      · exact .inl ⟨m, hle, hholds⟩
      · have hnext : Nearer who (d.along settings schedule m).world.lock
            (d.along settings schedule (m + 1)).world.lock :=
          nearer_step hwaiting.1 (schedule m)
        rcases Nearer.trans (.inr hwaiting) hnext with hholds | hnearer
        · exact .inl ⟨m, hle, hholds⟩
        · exact .inr hnearer

/-- Who waits for the lock is let in, and comes to its end. -/
theorem Fair.ends_of_awaits (hfair : d.Fair settings schedule) (h : d.Free settings b)
    (hawaits : (d.along settings schedule n).world.lock.awaits who = true) :
    ∃ m, n ≤ m ∧ (d.along settings schedule m).underway who = none := by
  -- By induction on how many have to give the lock back before.
  induction hahead : (d.along settings schedule n).world.lock.ahead who using Nat.strongRecOn
    generalizing n with
  | ind ahead ih =>
    have hfree := hfair.free h n
    have hheld : (d.along settings schedule n).world.lock.holders ≠ [] := by
      intro hnone
      obtain ⟨access, hqueue⟩ := FairLock.awaits_iff.1 hawaits
      rw [hfree.attended hnone] at hqueue
      cases hqueue
    obtain ⟨⟨holder, access⟩, hholder⟩ := List.exists_mem_of_ne_nil _ hheld
    obtain ⟨m, hle, hgone⟩ := hfair.ends_of_holds h hholder
    have hleft : (holder, access) ∉ (d.along settings schedule m).world.lock.holders := by
      intro hstays
      obtain ⟨op, r, next, hpending⟩ := (hfair.free h m).pending_of_holds hstays
      rw [hgone] at hpending
      cases hpending
    have hends : ∀ l, n ≤ l → (d.along settings schedule l).world.lock.holds who = true →
        ∃ m, n ≤ m ∧ (d.along settings schedule m).underway who = none := by
      intro l hle hholds
      obtain ⟨access', hmem⟩ := FairLock.holds_iff.1 hholds
      obtain ⟨m, hle', hnone⟩ := hfair.ends_of_holds h hmem
      exact ⟨m, Nat.le_trans hle hle', hnone⟩
    rcases nearer_along schedule hawaits hle with
      ⟨l, hle', hholds⟩ | hholds | ⟨hawaits', -, hsubset | hlt⟩
    · exact hends l hle' hholds
    · exact hends m hle hholds
    · exact absurd (hsubset hholder) hleft
    · rw [hahead] at hlt
      obtain ⟨l, hle', hnone⟩ := ih _ hlt hawaits' rfl
      exact ⟨l, Nat.le_trans hle hle', hnone⟩

/-! ## Everybody -/

/-- Who looks at the copy ends at its next turn. -/
theorem Fair.ends_of_glancing (hfair : d.Fair settings schedule) (h : d.Free settings b)
    {f : Roster → Result} (hwho : (d.along settings schedule n).underway who =
      some ⟨op, Script.ask (S := signature) .lastKnown fun roster => .done (f roster)⟩) :
    ∃ m, n ≤ m ∧ (d.along settings schedule m).underway who = none := by
  have hsome : (d.along settings schedule n).underway who ≠ none := by
    rw [hwho]
    exact Option.some_ne_none _
  obtain ⟨m, hle, hturn, hsame, -⟩ := hfair.next h hsome
  rw [hwho] at hsame
  refine ⟨m + 1, Nat.le_succ_of_le hle, ?_⟩
  rw [along, hturn, toSession_goesOn settings hsame rfl]
  exact Function.update_self _ _ _

/-- Who asks for the lock holds it after its turn, or waits for it, or looks at the copy. -/
theorem turn_of_asking (settings : Settings)
    (hwho : d.underway who = some ⟨op, op.transaction settings⟩) :
    (d.step settings (.goesOn who)).world.lock.holds who = true ∨
      (d.step settings (.goesOn who)).world.lock.awaits who = true ∨
      ∃ f : Roster → Result, (d.step settings (.goesOn who)).underway who =
        some ⟨op, Script.ask (S := signature) .lastKnown fun roster => .done (f roster)⟩ := by
  cases haccess : op.access with
  | some access =>
    rw [Operation.transaction_of_access haccess] at hwho
    cases hheld : (d.world.lock.acquire who access).1 with
    | true =>
      have hattempt : d.world.attempt who (.lock access) =
          (some (), { d.world with lock := (d.world.lock.acquire who access).2 }) := by
        rw [Session.attempt_lock, hheld]
        rfl
      rw [toSession_goesOn settings hwho hattempt, Session.world_goOn]
      exact .inl (FairLock.holds_iff.2 (FairLock.holds_of_acquire hheld))
    | false =>
      have hattempt : d.world.attempt who (.lock access) =
          (none, { d.world with lock := (d.world.lock.acquire who access).2 }) := by
        rw [Session.attempt_lock, hheld]
        rfl
      rw [goesOn_of_waits hwho hattempt]
      exact .inr (.inl (FairLock.awaits_of_acquire hheld))
  | none =>
    cases op with
    | roleStatuses =>
      rw [Operation.transaction_roleStatuses] at hwho
      have hstep := toSession_goesOn settings hwho (Session.attempt_tryLock (w := d.world))
      rw [hstep, Session.world_goOn]
      rcases FairLock.tryShared_cases who d.world.lock with ⟨-, htry⟩ | htry
      · rw [htry]
        exact .inl (FairLock.holds_iff.2 ⟨.shared, List.mem_cons_self⟩)
      · rw [htry]
        exact .inr (.inr ⟨_, Function.update_self _ _ _⟩)
    | _ => cases haccess

/-- Who is under way comes to its end, by a schedule that holds nothing back and lets everybody go
on. -/
theorem Fair.ends (hfair : d.Fair settings schedule) (h : d.Free settings b)
    (hwho : (d.along settings schedule n).underway who ≠ none) :
    ∃ m, n ≤ m ∧ (d.along settings schedule m).underway who = none := by
  obtain ⟨busy, hinvariant⟩ :=
    (hfair.free h n).booked.reachable.invariant (kept_true _ _) trivial
  by_cases hbusy : busy = some who
  · obtain ⟨op, body, account, roster, b', hupdating⟩ := hinvariant.updating_of_busy hbusy
    exact hfair.ends_of_holds h hupdating.alone
  · have hstands := hinvariant.others who hbusy
    generalize hpending : (d.along settings schedule n).underway who = pending at hstands hwho
    cases hstands with
    | absent => exact absurd rfl hwho
    | tending op body access hop hholds => exact hfair.ends_of_holds h hholds
    | glancing op f => exact hfair.ends_of_glancing h hpending
    | asking op =>
      have hsome : (d.along settings schedule n).underway who ≠ none := by
        rw [hpending]
        exact Option.some_ne_none _
      obtain ⟨m, hle, hturn, hsame, -⟩ := hfair.next h hsome
      have hsucc : (d.along settings schedule m).step settings (.goesOn who) =
          d.along settings schedule (m + 1) := by rw [along, hturn]
      have hturned := turn_of_asking settings (hsame.trans hpending)
      rw [hsucc] at hturned
      have hends : ∃ l, m + 1 ≤ l ∧ (d.along settings schedule l).underway who = none := by
        rcases hturned with hholds | hawaits | ⟨f, hglancing⟩
        · obtain ⟨access, hmem⟩ := FairLock.holds_iff.1 hholds
          exact hfair.ends_of_holds h hmem
        · exact hfair.ends_of_awaits h hawaits
        · exact hfair.ends_of_glancing h hglancing
      obtain ⟨l, hle', hnone⟩ := hends
      exact ⟨l, by omega, hnone⟩

/-- Who was begun ends with one result, and nothing is added to that. -/
theorem Fair.results (hfair : d.Fair settings schedule) (h : d.Free settings b)
    (hbegun : who < (d.along settings schedule n).begun.length) :
    ∃ result m, n ≤ m ∧ ∀ l, m ≤ l → (d.along settings schedule l).underway who = none ∧
      (d.along settings schedule l).resultsOf who = [(who, result)] := by
  obtain ⟨m, hle, hnone⟩ : ∃ m, n ≤ m ∧ (d.along settings schedule m).underway who = none := by
    by_cases hwho : (d.along settings schedule n).underway who = none
    · exact ⟨n, Nat.le_refl n, hwho⟩
    · exact hfair.ends h hwho
  have hbegun' : who < (d.along settings schedule m).begun.length :=
    Nat.lt_of_lt_of_le hbegun (length_begun_along schedule hle)
  obtain ⟨result, hresult⟩ : ∃ result,
      (d.along settings schedule m).resultsOf who = [(who, result)] := by
    rcases (hfair.free h m).booked.once who hbegun' with ⟨hsome, -⟩ | ⟨-, hresult⟩
    · exact absurd hnone hsome
    · exact hresult
  refine ⟨result, m, hle, fun l hle' => ?_⟩
  obtain ⟨hnone', -, hsame⟩ := along_of_none hnone hbegun' hle'
  exact ⟨hnone', hsame.trans hresult⟩

end Schedules

/-- Everybody can be given turns again and again. -/
theorem exists_fair (d : Docket ρ) (settings : Settings) :
    ∃ schedule, d.Fair settings schedule := by
  refine ⟨fun n => .goesOn (Nat.unpair n).1, ⟨?_, ?_⟩⟩
  · intro n gated heq
    cases heq
  · intro n who _
    refine ⟨Nat.pair who n, Nat.right_le_pair who n, ?_⟩
    rw [Nat.unpair_pair]

end Docket

/-- There is no deadlock in a crew, however many operations are on it and however their calls are
delayed: as long as anybody is under way, somebody is in a call or goes on.  Every operation is
under way or ended with one result; and once no call is held back any more each comes to its end,
whatever else is begun, as soon as everybody has its turn again and again. -/
theorem operations_finish {ρ : Type} [Backend ρ] (settings : Settings) (b : ρ)
    (happenings : List (Happening ρ)) :
    let d := (Docket.start b).run settings happenings
    let freed := d.step settings (.gates [])
    (∀ who, d.underway who ≠ none → ∃ other, d.InCall other ∨ d.CanGoOn other) ∧
      (∀ who < d.begun.length,
        d.underway who ≠ none ∧ d.resultsOf who = [] ∨
          d.underway who = none ∧ ∃ result, d.resultsOf who = [(who, result)]) ∧
      (∃ schedule, freed.Fair settings schedule) ∧
      ∀ schedule, freed.Fair settings schedule →
        ∀ n, ∀ who < (freed.along settings schedule n).begun.length,
          ∃ result m, n ≤ m ∧
            ∀ l, m ≤ l → (freed.along settings schedule l).underway who = none ∧
              (freed.along settings schedule l).resultsOf who = [(who, result)] := by
  intro d freed
  have hbooked : d.Booked settings b := (Docket.booked_start settings b).run happenings
  have hattended : d.world.lock.Attended :=
    Docket.attended_run FairLock.attended_empty happenings
  have hfree : freed.Free settings b := ⟨hbooked.step _, hattended, rfl⟩
  refine ⟨fun who hwho => ?_, hbooked.once, freed.exists_fair settings, ?_⟩
  · obtain ⟨busy, hinvariant⟩ := hbooked.reachable.invariant (kept_true _ _) trivial
    exact hinvariant.progress hattended hwho
  · intro schedule hfair n who hbegun
    exact hfair.results hfree hbegun

end Caretaker.Crew
