import Caretaker.Crew.World
import Caretaker.Proofs.Ensures

/-!
# Accounts of what is done under the lock

Who holds the lock alone sees a roster that nobody else changes, while the backend may answer each
call in any way and may change on its own in between.  An account is what can be told of that: the
roster, its copy, and the calls so far with their answers.

Main statements:

- `Account.Fits.answer`: a world follows the rule of accounts, whatever happens to its backend.
- `Transaction.ensures_run`: what a transaction ensures by accounts holds after a run in any world.
- `Performed.split`: every call of an account was answered by the backend at some time.
-/

namespace Caretaker.Crew

open Container (Backend)

/-- A call with its answer. -/
structure Exchange where
  call : Container.Call
  answer : call.Answer

/-- What is known of the roster under the lock, and what was called. -/
structure Account where
  roster : Roster
  /-- The copy of the roster that can always be read. -/
  lastKnown : Roster
  /-- The calls, the first one first. -/
  calls : List Exchange := []

namespace Account

/-- An account after one more call. -/
def called (exchange : Exchange) (s : Account) : Account :=
  { s with calls := s.calls ++ [exchange] }

/-- An account after a slot was set. -/
def set (role : Role) (slot : Slot) (s : Account) : Account :=
  { s with roster := s.roster.put role slot }

/-- An account after the copy of a slot was brought up to date. -/
def published (role : Role) (s : Account) : Account :=
  { s with lastKnown := s.lastKnown.put role (s.roster.slot role) }

/-- How an account goes on: calls are answered in any way, and nobody asks for the lock. -/
def rule : Rule signature Account
  | .call c, s, post => ∀ answer : c.Answer, post answer (s.called ⟨c, answer⟩)
  | .log _, s, post => post () s
  | .slot role, s, post => post (s.roster.slot role) s
  | .setSlot role slot, s, post => post () (s.set role slot)
  | .publish role, s, post => post () (s.published role)
  | .lastKnown, s, post => post s.lastKnown s
  -- An account is of work under the lock, where the lock is not asked for again.
  | .lock _, _, _ | .tryLock, _, _ | .unlock, _, _ => False

end Account

/-! ## The rule, request by request -/

section Rule

variable {s : Account}

@[simp] theorem ensures_call {c : Container.Call} {post : c.Answer → Account → Prop} :
    (Transaction.call c).Ensures Account.rule post s ↔
      ∀ answer : c.Answer, post answer (s.called ⟨c, answer⟩) := Iff.rfl

@[simp] theorem ensures_log {level : Level} {message : String}
    {fields : List (String × EventValue)} {post : Unit → Account → Prop} :
    (Transaction.log level message fields).Ensures Account.rule post s ↔ post () s := Iff.rfl

@[simp] theorem ensures_slot {role : Role} {post : Slot → Account → Prop} :
    (Transaction.slot role).Ensures Account.rule post s ↔ post (s.roster.slot role) s := Iff.rfl

@[simp] theorem ensures_setSlot {role : Role} {slot : Slot} {post : Unit → Account → Prop} :
    (Transaction.setSlot role slot).Ensures Account.rule post s ↔
      post () (s.set role slot) := Iff.rfl

@[simp] theorem ensures_publish {role : Role} {post : Unit → Account → Prop} :
    (Transaction.publish role).Ensures Account.rule post s ↔ post () (s.published role) := Iff.rfl

/-- The rule proves more where more follows. -/
theorem Account.rule_monotone : Account.rule.Monotone := by
  intro r s post post' himp h
  cases r with
  | lock => exact h
  | tryLock => exact h
  | unlock => exact h
  | call c => exact fun answer => himp _ _ (h answer)
  | _ => exact himp _ _ h

end Rule

/-! ## Backends under the calls of an account -/

section Performed

variable {ρ : Type} [Backend ρ]

/-- A backend comes from one state to another by the calls of an account with their answers; before,
between and after them it moves as the `outside` lets it. -/
inductive Performed (outside : ρ → ρ → Prop) (b : ρ) : List Exchange → ρ → Prop where
  | start : Performed outside b [] b
  | moved {calls : List Exchange} {b₁ b₂ : ρ} :
      Performed outside b calls b₁ → outside b₁ b₂ → Performed outside b calls b₂
  | called {calls : List Exchange} {b₁ : ρ} (c : Container.Call) :
      Performed outside b calls b₁ →
      Performed outside b (calls ++ [⟨c, (Backend.perform c b₁).answer⟩])
        (Backend.perform c b₁).state

/-- More calls go on where the calls before them ended. -/
theorem Performed.trans {outside : ρ → ρ → Prop} {b b' b'' : ρ} {calls calls' : List Exchange}
    (h : Performed outside b calls b') (h' : Performed outside b' calls' b'') :
    Performed outside b (calls ++ calls') b'' := by
  induction h' with
  | start => rwa [List.append_nil]
  | moved _ hmove ih => exact ih.moved hmove
  | called c _ ih =>
    rw [← List.append_assoc]
    exact ih.called c

/-- A backend that may move in more ways may also move in these. -/
theorem Performed.mono {outside outside' : ρ → ρ → Prop} {b b' : ρ} {calls : List Exchange}
    (h : Performed outside b calls b') (houtside : ∀ b₁ b₂, outside b₁ b₂ → outside' b₁ b₂) :
    Performed outside' b calls b' := by
  induction h with
  | start => exact .start
  | moved _ hmove ih => exact ih.moved (houtside _ _ hmove)
  | called c _ ih => exact ih.called c

/-- The backend gave the answer of each call at some time, and went on from there. -/
theorem Performed.split {outside : ρ → ρ → Prop} {b b' : ρ} {calls : List Exchange}
    (h : Performed outside b calls b') {c : Container.Call} {answer : c.Answer}
    (hmem : ⟨c, answer⟩ ∈ calls) :
    ∃ before b₁ after, Performed outside b before b₁ ∧
      (Backend.perform c b₁).answer = answer ∧
      Performed outside (Backend.perform c b₁).state after b' := by
  induction h with
  | start => cases hmem
  | moved _ hmove ih =>
    obtain ⟨before, b₁, after, hbefore, hanswer, hafter⟩ := ih hmem
    exact ⟨before, b₁, after, hbefore, hanswer, hafter.moved hmove⟩
  | @called calls b₂ c' hcalls ih =>
    rcases List.mem_append.1 hmem with hmem | hmem
    · obtain ⟨before, b₁, after, hbefore, hanswer, hafter⟩ := ih hmem
      exact ⟨before, b₁, _, hbefore, hanswer, hafter.called c'⟩
    · -- The last call of all.
      obtain ⟨rfl, hanswer⟩ := Exchange.mk.inj (List.mem_singleton.1 hmem)
      exact ⟨calls, b₂, [], hcalls, (eq_of_heq hanswer).symm, .start⟩

/-- A backend that gives handles of what it was told to start. -/
def FaithfulStart (ρ : Type) [Backend ρ] : Prop :=
  ∀ (descriptor : Descriptor) (b : ρ) (handle : Handle),
    (Backend.perform (.start descriptor) b).answer = .ok handle →
      handle.name = descriptor.name ∧ handle.descriptor = descriptor

/-- Whether the handles in an account are of what was started. -/
def FaithfulCalls (calls : List Exchange) : Prop :=
  ∀ (descriptor : Descriptor) (handle : Handle), ⟨.start descriptor, .ok handle⟩ ∈ calls →
    handle.name = descriptor.name ∧ handle.descriptor = descriptor

theorem Performed.faithful {outside : ρ → ρ → Prop} {b b' : ρ} {calls : List Exchange}
    (hfaithful : FaithfulStart ρ) (h : Performed outside b calls b') : FaithfulCalls calls := by
  intro descriptor handle hmem
  obtain ⟨-, b₁, -, -, hanswer, -⟩ := h.split hmem
  exact hfaithful descriptor b₁ handle hanswer

end Performed

/-! ## Worlds -/

/-- Whether a request is about the lock. -/
def Request.isLocking : Request → Bool
  | .lock _ | .tryLock | .unlock => true
  | _ => false

/-- A request that is not about the lock is answered as if nobody else were there, as soon as it is
answered. -/
theorem World.answer_of_attempt {ρ : Type} [Backend ρ] {w w' : World ρ} {who : Nat} {r : Request}
    {a : r.Answer} (hr : r.isLocking = false) (h : w.attempt who r = (some a, w')) :
    w.answer r = (a, w') := by
  cases r with
  | lock => cases hr
  | tryLock => cases hr
  | unlock => cases hr
  | call c =>
    simp only [World.attempt] at h
    split at h
    · cases h
    · cases h
      rfl
  | log event =>
    cases h
    rfl
  | slot role =>
    cases h
    rfl
  | setSlot role slot =>
    cases h
    rfl
  | publish role =>
    cases h
    rfl
  | lastKnown =>
    cases h
    rfl

/-- Nothing but a request about the lock changes the lock. -/
theorem World.answer_lock {ρ : Type} [Backend ρ] (w : World ρ) (r : Request) :
    (w.answer r).2.lock = w.lock := by
  cases r <;> rfl

/-- An account that fits a world, begun when the backend was `b`. -/
structure Account.Fits {ρ : Type} [Backend ρ] (outside : ρ → ρ → Prop) (b : ρ) (s : Account)
    (w : World ρ) : Prop where
  roster : w.roster = s.roster
  lastKnown : w.lastKnown = s.lastKnown
  calls : Performed outside b s.calls w.backend

section Worlds

variable {ρ : Type} [Backend ρ] {outside : ρ → ρ → Prop} {b : ρ} {s : Account} {w : World ρ}

theorem Account.isLocking_of_rule {r : Request} {post : r.Answer → Account → Prop}
    (h : Account.rule r s post) : r.isLocking = false := by
  cases r with
  | lock => exact h.elim
  | tryLock => exact h.elim
  | unlock => exact h.elim
  | _ => rfl

/-- A world follows the rule of accounts. -/
theorem Account.Fits.answer (hfit : s.Fits outside b w) {r : Request}
    {post : r.Answer → Account → Prop} (h : Account.rule r s post) :
    ∃ s', s'.Fits outside b (w.answer r).2 ∧ post (w.answer r).1 s' := by
  obtain ⟨hroster, hlast, hcalls⟩ := hfit
  cases r with
  | lock => exact h.elim
  | tryLock => exact h.elim
  | unlock => exact h.elim
  | call c =>
    -- Of all answers that the account allows the backend gives one.
    exact ⟨s.called ⟨c, (Backend.perform c w.backend).answer⟩,
      ⟨hroster, hlast, hcalls.called c⟩, h _⟩
  | log event => exact ⟨s, ⟨hroster, hlast, hcalls⟩, h⟩
  | slot role =>
    refine ⟨s, ⟨hroster, hlast, hcalls⟩, ?_⟩
    show post (w.roster.slot role) s
    rw [hroster]
    exact h
  | setSlot role slot =>
    refine ⟨s.set role slot, ⟨?_, hlast, hcalls⟩, h⟩
    show w.roster.put role slot = s.roster.put role slot
    rw [hroster]
  | publish role =>
    refine ⟨s.published role, ⟨hroster, ?_, hcalls⟩, h⟩
    show w.lastKnown.put role (w.roster.slot role) = s.lastKnown.put role (s.roster.slot role)
    rw [hroster, hlast]
  | lastKnown =>
    refine ⟨s, ⟨hroster, hlast, hcalls⟩, ?_⟩
    show post w.lastKnown s
    rw [hlast]
    exact h

/-- The account that begins in a world. -/
def World.account (w : World ρ) : Account where
  roster := w.roster
  lastKnown := w.lastKnown

theorem World.fits_account : w.account.Fits outside w.backend w := ⟨rfl, rfl, .start⟩

/-- What a transaction ensures by accounts holds after it ran in a world where nobody else is. -/
theorem Transaction.ensures_run {α : Type} {t : Transaction α} {post : α → Account → Prop}
    (h : t.Ensures Account.rule post w.account) :
    ∃ s : Account, s.Fits outside w.backend (t.run w).2 ∧ post (t.run w).1 s :=
  Script.Ensures.run (fun _ _ _ _ hfit hrule => hfit.answer hrule) World.fits_account h

end Worlds

end Caretaker.Crew
