import Caretaker.Proofs.FairLock
import Caretaker.Proofs.Session

/-!
# What sessions keep

What holds of a crew is best told while no update is at work.  A property of the turns so far, the
roster and the backend is kept by sessions when it is kept by single calls that tend containers and
by whole updates (`Kept`): nothing that mixes with an update sees it half done, or disturbs it.

The invariant names the update at work, if there is one.  It alone holds the lock, and its account
will come to the turns of its result; everybody else waits, tends containers or looks on.

Main statements:

- `Invariant.step`: what one step keeps.
- `Reachable.settled`: a kept property holds whenever nobody holds the lock, and the copy of the
  roster is up to date then.
- `Reachable.settled_of_update`: both hold as soon as an update ended.
-/

namespace Caretaker.Crew

open Container (Backend)
open Script

/-! ## Kept properties -/

/-- A property of the turns so far, the roster and the backend that nothing breaks: no move from
outside, no call that tends containers, and no update as a whole. -/
structure Kept {ρ : Type} [Backend ρ] (settings : Settings) (outside : ρ → ρ → Prop)
    (holds : List Turn → Roster → ρ → Prop) : Prop where
  moves {turns : List Turn} {roster : Roster} {b b' : ρ} :
    holds turns roster b → outside b b' → holds turns roster b'
  tends {turns : List Turn} {roster : Roster} {b : ρ} (c : Container.Call) :
    holds turns roster b → tends c = true → holds turns roster (Backend.perform c b).state
  updates {turns news : List Turn} {roster roster' : Roster} {b b' : ρ} {calls : List Exchange} :
    holds turns roster b → Taken settings news roster calls roster' →
      Performed outside b calls b' → holds (news.reverse ++ turns) roster' b'

namespace Session

variable {ρ : Type}

/-- Where an operation stands that is not updating: not there, asking for the lock, tending
containers under it, or about to look at what is last known. -/
inductive Stands (settings : Settings) (lock : FairLock) (who : Nat) : Option Pending → Prop where
  | absent (hout : ∀ access, (who, access) ∉ lock.entries) : Stands settings lock who none
  | asking (op : Operation)
      (hentry : ∀ access, (who, access) ∈ lock.entries → op.access = some access) :
      Stands settings lock who (some ⟨op, op.transaction settings⟩)
  | tending (op : Operation) (body : Transaction Result) (access : Access)
      (hop : op.isUpdate = false) (hholds : (who, access) ∈ lock.holders)
      (hbody : body.Only (S := signature) Request.Tends) :
      Stands settings lock who (some ⟨op, thenUnlock body⟩)
  | glancing (op : Operation) (f : Roster → Result) (hop : op.isUpdate = false)
      (hout : ∀ access, (who, access) ∉ lock.entries) :
      Stands settings lock who
        (some ⟨op, Script.ask (S := signature) .lastKnown fun roster => .done (f roster)⟩)

section Stands

variable {settings : Settings} {lock : FairLock} {s : Session ρ} {who : Nat}
  {pending : Option Pending}

/-- Who keeps its place in the lock stands where it stood. -/
theorem Stands.mono {lock' : FairLock}
    (h : Stands settings lock who pending)
    (hentries : ∀ access, (who, access) ∈ lock'.entries → (who, access) ∈ lock.entries)
    (hholders : ∀ access, (who, access) ∈ lock.holders → (who, access) ∈ lock'.holders) :
    Stands settings lock' who pending := by
  cases h with
  | absent hout => exact .absent fun access he => hout access (hentries access he)
  | asking op hentry => exact .asking op fun access he => hentry access (hentries access he)
  | tending op body access hop hholds hbody =>
    exact .tending op body access hop (hholders access hholds) hbody
  | glancing op f hop hout =>
    exact .glancing op f hop fun access he => hout access (hentries access he)

/-- Everybody else stands as before when one operation goes on and nobody else loses its place. -/
theorem stands_update {busy' : Option Nat}
    (hothers : ∀ other, other ≠ who → busy' ≠ some other →
      Stands settings lock other (s.underway other))
    (hwho : busy' ≠ some who → Stands settings lock who pending) (other : Nat)
    (hother : busy' ≠ some other) :
    Stands settings lock other (Function.update s.underway who pending other) := by
  by_cases heq : other = who
  · subst heq
    rw [Function.update_self]
    exact hwho hother
  · rw [Function.update_of_ne heq]
    exact hothers other heq hother

/-- The update at work stays where it is when somebody else goes on. -/
theorem underway_update_of_busy {busy : Option Nat} {other : Nat} (hwho : busy ≠ some who)
    (hother : busy = some other) :
    Function.update s.underway who pending other = s.underway other := by
  have hne : other ≠ who := by
    rintro rfl
    exact hwho hother
  exact Function.update_of_ne hne _ _

/-- Only who begins asks for the lock. -/
theorem Stands.of_lock {op : Operation} {access : Access} {next : Unit → Transaction Result}
    (h : Stands settings lock who
      (some ⟨op, Script.ask (S := signature) (.lock access) next⟩)) :
    op.transaction settings = Script.ask (S := signature) (.lock access) next ∧
      ∀ access', (who, access') ∈ lock.entries → op.access = some access' := by
  generalize hpending : some (Pending.mk op _) = pending at h
  cases h with
  | absent => cases hpending
  | asking op' hentry =>
    obtain ⟨rfl, hrest⟩ := Pending.mk.inj (Option.some.inj hpending)
    exact ⟨hrest.symm, hentry⟩
  | tending op' body access' _ _ hbody =>
    obtain ⟨rfl, hrest⟩ := Pending.mk.inj (Option.some.inj hpending)
    cases body with
    | done value => cases hrest
    | ask r next =>
      cases hrest
      exact hbody.1.elim
  | glancing op' f =>
    obtain ⟨rfl, hrest⟩ := Pending.mk.inj (Option.some.inj hpending)
    cases hrest

end Stands

/-- Whether an update that is entered in the ledger by a step leaves nobody at work. -/
def Concluded (s s' : Session ρ) (busy : Option Nat) : Prop :=
  ∀ op result, op.isUpdate = true → s'.ledger = (op, result) :: s.ledger → busy = none

theorem Concluded.of_ledger {s s' : Session ρ} {busy : Option Nat} (h : s'.ledger = s.ledger) :
    Concluded s s' busy := by
  intro op result _ hledger
  rw [h] at hledger
  exact absurd hledger.symm (List.cons_ne_self _ _)

variable [Backend ρ]

/-- An update at work: it alone holds the lock, and what it did since it began fits an account that
will come to the turns of its result. -/
structure Updating (settings : Settings) (outside : ρ → ρ → Prop)
    (holds : List Turn → Roster → ρ → Prop) (s : Session ρ) (who : Nat) (op : Operation)
    (body : Transaction Result) (account : Account) (roster : Roster) (b : ρ) : Prop where
  pending : s.underway who = some ⟨op, thenUnlock body⟩
  update : op.isUpdate = true
  alone : (who, .exclusive) ∈ s.world.lock.holders
  before : holds s.turns roster b
  fits : account.Fits outside b s.world
  ensures : body.Ensures Account.rule (fun result s' =>
    Taken settings (op.turns result) roster s'.calls s'.roster ∧ s'.lastKnown = s'.roster) account

/-- The state of a crew, where `busy` is the update at work, if there is one. -/
def Stock (settings : Settings) (outside : ρ → ρ → Prop)
    (holds : List Turn → Roster → ρ → Prop) (s : Session ρ) : (busy : Option Nat) → Prop
  | none => s.world.lastKnown = s.world.roster ∧ holds s.turns s.world.roster s.world.backend
  | some who => ∃ op body account roster b,
    Updating settings outside holds s who op body account roster b

/-- What holds of every session that can be reached. -/
structure Invariant (settings : Settings) (outside : ρ → ρ → Prop)
    (holds : List Turn → Roster → ρ → Prop) (s : Session ρ) (busy : Option Nat) : Prop where
  lock : s.world.lock.Sound
  others : ∀ who, busy ≠ some who → Stands settings s.world.lock who (s.underway who)
  stock : Stock settings outside holds s busy

/-! ## What steps keep -/

section Keep

variable {settings : Settings} {outside : ρ → ρ → Prop} {holds : List Turn → Roster → ρ → Prop}
  {s : Session ρ} {busy : Option Nat} {who : Nat} {op : Operation}

/-- While an update is at work it is the only holder of the lock. -/
theorem Updating.eq_of_holds {body : Transaction Result} {account : Account} {roster : Roster}
    {b : ρ} {other : Nat} {access : Access} (hlock : s.world.lock.Sound)
    (h : Updating settings outside holds s who op body account roster b)
    (hother : (other, access) ∈ s.world.lock.holders) : other = who :=
  hlock.eq_of_exclusive h.alone hother

/-- An update at work asks for the lock no more. -/
theorem Updating.not_lock {body : Transaction Result} {account : Account} {roster : Roster}
    {b : ρ} {op' : Operation} {access : Access} {next : Unit → Transaction Result}
    (h : Updating settings outside holds s who op body account roster b)
    (hwho : s.underway who = some ⟨op', Script.ask (S := signature) (.lock access) next⟩) :
    False := by
  obtain ⟨-, hrest⟩ := Pending.mk.inj (Option.some.inj (h.pending.symm.trans hwho))
  cases body with
  | done value => cases hrest
  | ask r next =>
    cases hrest
    exact h.ensures

/-- Whoever is named by the invariant is at work. -/
theorem Invariant.updating_of_busy (h : Invariant settings outside holds s busy)
    (hbusy : busy = some who) :
    ∃ op body account roster b, Updating settings outside holds s who op body account roster b := by
  subst hbusy
  exact h.stock

/-- Somebody who began a step away from the update at work, and is a holder, has the crew alone. -/
theorem Invariant.not_busy (h : Invariant settings outside holds s busy) {access : Access}
    (hwho : busy ≠ some who) (hholds : (who, access) ∈ s.world.lock.holders) : busy = none := by
  cases hbusy : busy with
  | none => rfl
  | some other =>
    obtain ⟨op, body, account, roster, b, hupdating⟩ := h.updating_of_busy hbusy
    have heq : who = other := hupdating.eq_of_holds h.lock hholds
    rw [hbusy, heq] at hwho
    exact absurd rfl hwho

/-- The state of a crew does not change with the lock's queue, the calls that are held back, or what
others do that are under way. -/
theorem Stock.frame {s' : Session ρ} (h : Stock settings outside holds s busy)
    (hroster : s'.world.roster = s.world.roster) (hcopy : s'.world.lastKnown = s.world.lastKnown)
    (hbackend : s'.world.backend = s.world.backend) (hturns : s'.turns = s.turns)
    (hholders : s.world.lock.holders ⊆ s'.world.lock.holders)
    (hunderway : ∀ who, busy = some who → s'.underway who = s.underway who) :
    Stock settings outside holds s' busy := by
  cases busy with
  | none =>
    obtain ⟨hlast, hholds⟩ := h
    refine ⟨?_, ?_⟩
    · rw [hcopy, hroster]
      exact hlast
    · rw [hturns, hroster, hbackend]
      exact hholds
  | some who =>
    obtain ⟨op, body, account, roster, b, hupdating⟩ := h
    refine ⟨op, body, account, roster, b, ?_, hupdating.update, hholders hupdating.alone, ?_,
      ⟨?_, ?_, ?_⟩, hupdating.ensures⟩
    · rw [hunderway who rfl]
      exact hupdating.pending
    · rw [hturns]
      exact hupdating.before
    · rw [hroster]
      exact hupdating.fits.roster
    · rw [hcopy]
      exact hupdating.fits.lastKnown
    · rw [hbackend]
      exact hupdating.fits.calls

/-! ### Steps that answer nothing -/

theorem Invariant.begins (h : Invariant settings outside holds s busy)
    (hfree : s.underway who = none) :
    Invariant settings outside holds
      { s with underway := Function.update s.underway who (some ⟨op, op.transaction settings⟩) }
      busy := by
  have hwho : busy ≠ some who := by
    -- An update at work is under way already.
    intro hbusy
    obtain ⟨op, body, account, roster, b, hupdating⟩ := h.updating_of_busy hbusy
    rw [hupdating.pending] at hfree
    cases hfree
  have hout : ∀ access, (who, access) ∉ s.world.lock.entries := by
    have hstands := h.others who hwho
    rw [hfree] at hstands
    cases hstands with
    | absent hout => exact hout
  refine ⟨h.lock, ?_, h.stock.frame rfl rfl rfl rfl (List.Subset.refl _) ?_⟩
  · refine stands_update (fun other _ hother => h.others other hother) fun _ => ?_
    exact .asking op fun access he => absurd he (hout access)
  · intro other hother
    exact underway_update_of_busy hwho hother

theorem Invariant.moves (hkept : Kept settings outside holds)
    (h : Invariant settings outside holds s busy) {b : ρ} (hmove : outside s.world.backend b) :
    Invariant settings outside holds { s with world := { s.world with backend := b } } busy := by
  refine ⟨h.lock, h.others, ?_⟩
  have hstock := h.stock
  cases busy with
  | none => exact ⟨hstock.1, hkept.moves hstock.2 hmove⟩
  | some who =>
    -- The account of the update goes on as it is: the move is one of those in between.
    obtain ⟨op, body, account, roster, b₀, hupdating⟩ := hstock
    obtain ⟨hroster, hcopy, hcalls⟩ := hupdating.fits
    exact ⟨op, body, account, roster, b₀, hupdating.pending, hupdating.update, hupdating.alone,
      hupdating.before, ⟨hroster, hcopy, hcalls.moved hmove⟩, hupdating.ensures⟩

/-- A lock that enters nobody but `who`, and lets nobody go, leaves everybody else in place. -/
theorem Invariant.stands_entered (h : Invariant settings outside holds s busy) {lock : FairLock}
    {access : Access}
    (hentries : ∀ e ∈ lock.entries, e = (who, access) ∨ e ∈ s.world.lock.entries)
    (hholders : s.world.lock.holders ⊆ lock.holders) {other : Nat} (hother : busy ≠ some other)
    (hne : other ≠ who) : Stands settings lock other (s.underway other) := by
  refine (h.others other hother).mono (fun access' he => ?_) fun access' he => hholders he
  rcases hentries _ he with heq | he
  · exact absurd (Prod.ext_iff.1 heq).1 hne
  · exact he

theorem Invariant.waits (h : Invariant settings outside holds s busy) {r : Request}
    {next : r.Answer → Transaction Result} {w : World ρ}
    (hwho : s.underway who = some ⟨op, Script.ask (S := signature) r next⟩)
    (hattempt : s.world.attempt who r = (none, w)) :
    Invariant settings outside holds { s with world := w } busy := by
  rcases attempt_waits hattempt with rfl | ⟨access, rfl, rfl⟩
  · exact h
  · -- A place in the queue at most, for an operation that has only begun.
    have hnot : busy ≠ some who := by
      intro hbusy
      obtain ⟨op', body, account, roster, b, hupdating⟩ := h.updating_of_busy hbusy
      exact hupdating.not_lock hwho
    have hstands := h.others who hnot
    rw [hwho] at hstands
    obtain ⟨hrest, hentry⟩ := hstands.of_lock
    have haccess : op.access = some access := Operation.access_of_transaction hrest
    have hentries : ∀ e ∈ (s.world.lock.acquire who access).2.entries,
        e = (who, access) ∨ e ∈ s.world.lock.entries := fun _ => FairLock.mem_entries_of_acquire
    have hholders : s.world.lock.holders ⊆ (s.world.lock.acquire who access).2.holders :=
      FairLock.holders_subset_acquire
    refine ⟨h.lock.acquire, fun other hother => ?_,
      h.stock.frame rfl rfl rfl rfl hholders fun _ _ => rfl⟩
    by_cases heq : other = who
    · subst heq
      show Stands settings (s.world.lock.acquire other access).2 other (s.underway other)
      rw [hwho, ← hrest]
      refine .asking op fun access' he => ?_
      rcases hentries _ he with he | he
      · cases he
        exact haccess
      · exact hentry access' he
    · exact h.stands_entered hentries hholders hother heq

/-! ### Answers -/

/-- The update at work goes on by its account, or ends and has taken its turns. -/
theorem Invariant.answers_busy (hkept : Kept settings outside holds)
    (h : Invariant settings outside holds s (some who)) {r : Request}
    {next : r.Answer → Transaction Result} {answer : r.Answer} {w : World ρ}
    (hwho : s.underway who = some ⟨op, Script.ask (S := signature) r next⟩)
    (hattempt : s.world.attempt who r = (some answer, w)) :
    ∃ busy', Invariant settings outside holds (s.goOn who op (next answer) w) busy' ∧
      Concluded s (s.goOn who op (next answer) w) busy' := by
  obtain ⟨op', body, account, roster, b, hupdating⟩ := h.stock
  obtain ⟨rfl, hrest⟩ := Pending.mk.inj (Option.some.inj (hupdating.pending.symm.trans hwho))
  cases body with
  | done value =>
    -- The lock is given back: the turns are taken, and nobody is at work.
    cases hrest
    obtain ⟨hanswer, rfl⟩ := Prod.mk.inj hattempt
    refine ⟨none, ⟨h.lock.release, ?_, ?_⟩, fun _ _ _ _ => rfl⟩
    · refine stands_update (fun other hne _ => ?_) fun _ => ?_
      · refine (h.others other (fun heq => hne (Option.some.inj heq).symm)).mono
          (fun access he => FairLock.mem_entries_of_release he)
          fun access he => FairLock.holders_release_of_ne he hne
      · exact .absent fun access => h.lock.notMem_release hupdating.alone
    · obtain ⟨htaken, hcopy⟩ := hupdating.ensures
      obtain ⟨hroster, hlast, hcalls⟩ := hupdating.fits
      refine ⟨?_, ?_⟩
      · show s.world.lastKnown = s.world.roster
        rw [hlast, hroster]
        exact hcopy
      · rw [← hroster] at htaken
        exact hkept.updates hupdating.before htaken hcalls
  | ask _ next' =>
    -- One request more: the account goes on.
    rw [thenUnlock_ask] at hrest
    cases hrest
    have hlocking : r.isLocking = false := Account.isLocking_of_rule hupdating.ensures
    have hanswer := World.answer_of_attempt hlocking hattempt
    obtain ⟨account', hfits, hensures⟩ := hupdating.fits.answer hupdating.ensures
    have hlock := World.answer_lock s.world r
    rw [hanswer] at hfits hensures hlock
    rw [goOn_thenUnlock]
    refine ⟨some who, ⟨?_, ?_, ?_⟩, .of_ledger rfl⟩
    · show w.lock.Sound
      rw [hlock]
      exact h.lock
    · refine stands_update (fun other hne hother => ?_) fun hne => absurd rfl hne
      show Stands settings w.lock other (s.underway other)
      rw [hlock]
      exact h.others other hother
    · refine ⟨op', next' answer, account', roster, b, Function.update_self _ _ _,
        hupdating.update, ?_, hupdating.before, hfits, hensures⟩
      show (who, Access.exclusive) ∈ w.lock.holders
      rw [hlock]
      exact hupdating.alone

/-- Who is let in to tend containers stands at that, and changes nothing for the others. -/
theorem Invariant.tending (h : Invariant settings outside holds s busy) {lock : FairLock}
    {access : Access} {body : Transaction Result} (hwho : busy ≠ some who)
    (hop : op.isUpdate = false) (hlock : lock.Sound)
    (hentries : ∀ e ∈ lock.entries, e = (who, access) ∨ e ∈ s.world.lock.entries)
    (hholders : s.world.lock.holders ⊆ lock.holders) (hin : (who, access) ∈ lock.holders)
    (hbody : body.Only (S := signature) Request.Tends) :
    Invariant settings outside holds
      { s with
        world := { s.world with lock }
        underway := Function.update s.underway who (some ⟨op, thenUnlock body⟩) } busy := by
  refine ⟨hlock, ?_, h.stock.frame rfl rfl rfl rfl hholders fun other hother => ?_⟩
  · refine stands_update (fun other hne hother => ?_) fun _ => ?_
    · exact h.stands_entered hentries hholders hother hne
    · exact .tending op body access hop hin hbody
  · exact underway_update_of_busy hwho hother

/-- An update that is let in begins its account. -/
theorem Invariant.updating (h : Invariant settings outside holds s none) {lock : FairLock}
    (hop : op.isUpdate = true) (hlock : lock.Sound)
    (hentries : ∀ e ∈ lock.entries, e = (who, .exclusive) ∨ e ∈ s.world.lock.entries)
    (hholders : s.world.lock.holders ⊆ lock.holders) (hin : (who, .exclusive) ∈ lock.holders) :
    Invariant settings outside holds
      { s with
        world := { s.world with lock }
        underway := Function.update s.underway who
          (some ⟨op, thenUnlock (op.work settings)⟩) } (some who) := by
  refine ⟨hlock, ?_, ?_⟩
  · refine stands_update (fun other hne _ => ?_) fun hne => absurd rfl hne
    have hother : (none : Option Nat) ≠ some other := by simp
    exact h.stands_entered hentries hholders hother hne
  · obtain ⟨hcopy, hholds⟩ := h.stock
    have hwork : (op.work settings).Ensures Account.rule (fun result s' =>
        Taken settings (op.turns result) s.world.roster s'.calls s'.roster ∧
          s'.lastKnown = s'.roster) s.world.account := by
      refine (Operation.ensures_work hop s.world.account).mono Account.rule_monotone ?_
      rintro result s' ⟨calls, htaken, hcalls, hlast⟩
      have hcalls : s'.calls = calls := hcalls
      refine ⟨?_, hlast hcopy⟩
      rw [hcalls]
      exact htaken
    exact ⟨op, op.work settings, s.world.account, s.world.roster, s.world.backend,
      Function.update_self _ _ _, hop, hin, hholds, ⟨rfl, rfl, .start⟩, hwork⟩

/-- Who asked for the lock begins its work when it is told to have it. -/
theorem Invariant.answers_asking (h : Invariant settings outside holds s busy) {r : Request}
    {next : r.Answer → Transaction Result} {answer : r.Answer} {w : World ρ}
    (hwho : busy ≠ some who)
    (hentry : ∀ access, (who, access) ∈ s.world.lock.entries → op.access = some access)
    (hrest : op.transaction settings = Script.ask (S := signature) r next)
    (hattempt : s.world.attempt who r = (some answer, w)) :
    ∃ busy', Invariant settings outside holds (s.goOn who op (next answer) w) busy' ∧
      Concluded s (s.goOn who op (next answer) w) busy' := by
  cases haccess : op.access with
  | some access =>
    rw [Operation.transaction_of_access haccess] at hrest
    cases hrest
    rw [attempt_lock] at hattempt
    obtain ⟨hanswer, rfl⟩ := Prod.mk.inj hattempt
    have hheld : (s.world.lock.acquire who access).1 = true := by
      by_contra hnot
      rw [if_neg hnot] at hanswer
      cases hanswer
    have hentries : ∀ e ∈ (s.world.lock.acquire who access).2.entries,
        e = (who, access) ∨ e ∈ s.world.lock.entries := fun _ => FairLock.mem_entries_of_acquire
    have hholders : s.world.lock.holders ⊆ (s.world.lock.acquire who access).2.holders :=
      FairLock.holders_subset_acquire
    -- It holds the lock as it asked for it, also where it was handed over before.
    have hin : (who, access) ∈ (s.world.lock.acquire who access).2.holders := by
      obtain ⟨held, hin⟩ := FairLock.holds_of_acquire hheld
      rcases hentries _ (FairLock.mem_entries_of_holds hin) with heq | he
      · rwa [heq] at hin
      · have hsome := hentry held he
        rw [haccess] at hsome
        cases hsome
        exact hin
    rw [goOn_thenUnlock]
    cases hop : op.isUpdate with
    | false =>
      exact ⟨busy, h.tending hwho hop h.lock.acquire hentries hholders hin
        (Operation.only_work settings hop), .of_ledger rfl⟩
    | true =>
      have hexclusive := Operation.access_of_update hop
      rw [haccess] at hexclusive
      cases hexclusive
      -- No other update is at work: it would hold the lock alone as well.
      have hbusy : busy = none := by
        cases hbusy : busy with
        | none => rfl
        | some other =>
          obtain ⟨op', body, account, roster, b, hupdating⟩ := h.updating_of_busy hbusy
          have heq := h.lock.acquire.eq_of_exclusive hin (hholders hupdating.alone)
          rw [hbusy, heq] at hwho
          exact absurd rfl hwho
      subst hbusy
      exact ⟨some who, h.updating hop h.lock.acquire hentries hholders hin, .of_ledger rfl⟩
  | none =>
    have hout : ∀ access, (who, access) ∉ s.world.lock.entries := by
      intro access he
      have hsome := hentry access he
      rw [haccess] at hsome
      cases hsome
    cases op with
    | roleStatuses =>
      rw [Operation.transaction_roleStatuses] at hrest
      cases hrest
      rw [attempt_tryLock] at hattempt
      obtain ⟨hanswer, rfl⟩ := Prod.mk.inj hattempt
      cases hanswer
      rcases FairLock.tryShared_cases who s.world.lock with ⟨-, htry⟩ | htry
      · -- The lock can be read at once.
        have hentries : ∀ e ∈ (s.world.lock.tryShared who).2.entries,
            e = (who, .shared) ∨ e ∈ s.world.lock.entries :=
          fun _ => FairLock.mem_entries_of_tryShared
        have hin : (who, .shared) ∈ (s.world.lock.tryShared who).2.holders := by
          rw [htry]
          exact List.mem_cons_self
        have hop : Operation.roleStatuses.isUpdate = false := rfl
        have hinvariant := h.tending hwho hop (h.lock.tryShared hout) hentries
          FairLock.holders_subset_tryShared hin (Operation.only_work settings hop)
        have hheld : (s.world.lock.tryShared who).1 = true := by rw [htry]
        beta_reduce
        rw [if_pos hheld, goOn_thenUnlock]
        exact ⟨busy, hinvariant, .of_ledger rfl⟩
      · -- It cannot, and what is last known is asked for.
        rw [htry]
        refine ⟨busy, ⟨h.lock, ?_, ?_⟩, .of_ledger rfl⟩
        · refine stands_update (fun other _ hother => h.others other hother) fun _ => ?_
          exact .glancing _ _ rfl hout
        · refine h.stock.frame rfl rfl rfl rfl (List.Subset.refl _) fun other hother => ?_
          exact underway_update_of_busy hwho hother
    | _ => cases haccess

/-- Who tends containers goes on, or is done and gives the lock back. -/
theorem Invariant.answers_tending (hkept : Kept settings outside holds)
    (h : Invariant settings outside holds s busy) {body : Transaction Result} {access : Access}
    {r : Request} {next : r.Answer → Transaction Result} {answer : r.Answer} {w : World ρ}
    (hwho : busy ≠ some who) (hop : op.isUpdate = false)
    (hholds : (who, access) ∈ s.world.lock.holders)
    (hbody : body.Only (S := signature) Request.Tends)
    (hrest : thenUnlock body = Script.ask (S := signature) r next)
    (hattempt : s.world.attempt who r = (some answer, w)) :
    ∃ busy', Invariant settings outside holds (s.goOn who op (next answer) w) busy' ∧
      Concluded s (s.goOn who op (next answer) w) busy' := by
  have hbusy : busy = none := h.not_busy hwho hholds
  subst hbusy
  obtain ⟨hcopy, hstock⟩ := h.stock
  cases body with
  | done value =>
    cases hrest
    obtain ⟨hanswer, rfl⟩ := Prod.mk.inj hattempt
    refine ⟨none, ⟨h.lock.release, ?_, hcopy, ?_⟩, fun _ _ _ _ => rfl⟩
    · refine stands_update (fun other hne hother => ?_) fun _ => ?_
      · exact (h.others other hother).mono
          (fun access' he => FairLock.mem_entries_of_release he)
          fun access' he => FairLock.holders_release_of_ne he hne
      · exact .absent fun access' => h.lock.notMem_release hholds
    · show holds (s.goOn who op (.done value) _).turns s.world.roster s.world.backend
      rw [turns_goOn_of_not_update hop]
      exact hstock
  | ask _ next' =>
    rw [thenUnlock_ask] at hrest
    cases hrest
    have hanswer := World.answer_of_attempt (isLocking_of_tends hbody.1) hattempt
    obtain ⟨hroster, hlast, hbackend⟩ := answer_tends (w := s.world) hbody.1
    have hlock := World.answer_lock s.world r
    rw [hanswer] at hroster hlast hbackend hlock
    rw [goOn_thenUnlock]
    refine ⟨none, ⟨?_, ?_, ?_, ?_⟩, fun _ _ _ _ => rfl⟩
    · show w.lock.Sound
      rw [hlock]
      exact h.lock
    · refine stands_update (fun other hne hother => ?_) fun _ => ?_
      · show Stands settings w.lock other (s.underway other)
        rw [hlock]
        exact h.others other hother
      · refine .tending op _ access hop ?_ (hbody.2 answer)
        show (who, access) ∈ w.lock.holders
        rw [hlock]
        exact hholds
    · show w.lastKnown = w.roster
      rw [hlast, hroster]
      exact hcopy
    · show holds s.turns w.roster w.backend
      rw [hroster]
      rcases hbackend with hbackend | ⟨c, hc, hbackend⟩
      · rw [hbackend]
        exact hstock
      · rw [hbackend]
        exact hkept.tends c hstock hc

/-- Who looked at what is last known is done. -/
theorem Invariant.answers_glancing (h : Invariant settings outside holds s busy)
    {result : Result} (hwho : busy ≠ some who) (hop : op.isUpdate = false)
    (hout : ∀ access, (who, access) ∉ s.world.lock.entries) :
    Invariant settings outside holds (s.goOn who op (.done result) s.world) busy ∧
      Concluded s (s.goOn who op (.done result) s.world) busy := by
  refine ⟨⟨h.lock, ?_, ?_⟩, ?_⟩
  · refine stands_update (fun other _ hother => h.others other hother) fun _ => ?_
    exact .absent hout
  · refine h.stock.frame rfl rfl rfl (turns_goOn_of_not_update hop result)
      (List.Subset.refl _) fun other hother => ?_
    exact underway_update_of_busy hwho hother
  · -- What is entered in the ledger is no update.
    intro op' result' hop' hledger
    have heq : op = op' := (Prod.mk.inj (List.cons.inj hledger).1).1
    rw [heq, hop'] at hop
    cases hop

/-- What an answer keeps, wherever the operation stands. -/
theorem Invariant.answers (hkept : Kept settings outside holds)
    (h : Invariant settings outside holds s busy) {r : Request}
    {next : r.Answer → Transaction Result} {answer : r.Answer} {w : World ρ}
    (hwho : s.underway who = some ⟨op, Script.ask (S := signature) r next⟩)
    (hattempt : s.world.attempt who r = (some answer, w)) :
    ∃ busy', Invariant settings outside holds (s.goOn who op (next answer) w) busy' ∧
      Concluded s (s.goOn who op (next answer) w) busy' := by
  by_cases hbusy : busy = some who
  · subst hbusy
    exact h.answers_busy hkept hwho hattempt
  · have hstands := h.others who hbusy
    generalize hpending : s.underway who = pending at hstands
    rw [hwho] at hpending
    cases hstands with
    | absent => cases hpending
    | asking op' hentry =>
      obtain ⟨rfl, hrest⟩ := Pending.mk.inj (Option.some.inj hpending)
      exact h.answers_asking hbusy hentry hrest.symm hattempt
    | tending op' body access hop hholds hbody =>
      obtain ⟨rfl, hrest⟩ := Pending.mk.inj (Option.some.inj hpending)
      exact h.answers_tending hkept hbusy hop hholds hbody hrest.symm hattempt
    | glancing op' f hop hout =>
      obtain ⟨rfl, hrest⟩ := Pending.mk.inj (Option.some.inj hpending)
      cases hrest
      obtain ⟨-, rfl⟩ := Prod.mk.inj hattempt
      exact ⟨busy, h.answers_glancing hbusy hop hout⟩

/-- One step keeps the invariant, and an update that ends by it leaves nobody at work. -/
theorem Invariant.step (hkept : Kept settings outside holds) {s' : Session ρ}
    (h : Invariant settings outside holds s busy) (hstep : Step settings outside s s') :
    ∃ busy', Invariant settings outside holds s' busy' ∧ Concluded s s' busy' := by
  cases hstep with
  | begins who op hfree => exact ⟨busy, h.begins hfree, .of_ledger rfl⟩
  | answers who op r next answer w hwho hattempt => exact h.answers hkept hwho hattempt
  | waits who op r next w hwho hattempt => exact ⟨busy, h.waits hwho hattempt, .of_ledger rfl⟩
  | moves b hmove => exact ⟨busy, h.moves hkept hmove, .of_ledger rfl⟩
  | gates gated =>
    exact ⟨busy, ⟨h.lock, h.others, h.stock.frame rfl rfl rfl rfl (List.Subset.refl _)
      fun _ _ => rfl⟩, .of_ledger rfl⟩

end Keep

/-! ## What holds of every session -/

section Reach

variable {settings : Settings} {outside : ρ → ρ → Prop} {holds : List Turn → Roster → ρ → Prop}
  {s : Session ρ} {b : ρ}

theorem Reachable.invariant (hkept : Kept settings outside holds) (hinit : holds [] {} b)
    (h : Reachable settings outside b s) : ∃ busy, Invariant settings outside holds s busy := by
  induction h with
  | start =>
    refine ⟨none, FairLock.sound_empty, fun who _ => .absent fun access he => ?_, rfl, hinit⟩
    exact absurd he List.not_mem_nil
  | step _ hstep ih =>
    obtain ⟨busy, hinvariant⟩ := ih
    obtain ⟨busy', hinvariant', -⟩ := hinvariant.step hkept hstep
    exact ⟨busy', hinvariant'⟩

/-- While nobody holds the lock, a kept property holds and the copy of the roster is up to date. -/
theorem Reachable.settled (hkept : Kept settings outside holds) (hinit : holds [] {} b)
    (h : Reachable settings outside b s) (hfree : s.world.lock.holders = []) :
    s.world.lastKnown = s.world.roster ∧ holds s.turns s.world.roster s.world.backend := by
  obtain ⟨busy, hinvariant⟩ := h.invariant hkept hinit
  have hstock := hinvariant.stock
  cases busy with
  | none => exact hstock
  | some who =>
    obtain ⟨op, body, account, roster, b, hupdating⟩ := hstock
    have halone := hupdating.alone
    rw [hfree] at halone
    cases halone

/-- As soon as an update ended, a kept property holds and the copy of the roster is up to date,
whoever is next in the lock. -/
theorem Reachable.settled_of_update (hkept : Kept settings outside holds) (hinit : holds [] {} b)
    (h : Reachable settings outside b s) {s' : Session ρ} (hstep : Step settings outside s s')
    {op : Operation} {result : Result} (hop : op.isUpdate = true)
    (hledger : s'.ledger = (op, result) :: s.ledger) :
    s'.world.lastKnown = s'.world.roster ∧ holds s'.turns s'.world.roster s'.world.backend := by
  obtain ⟨busy, hinvariant⟩ := h.invariant hkept hinit
  obtain ⟨busy', hinvariant', hconcluded⟩ := hinvariant.step hkept hstep
  have hbusy : busy' = none := hconcluded op result hop hledger
  subst hbusy
  exact hinvariant'.stock

end Reach

end Session
end Caretaker.Crew
