import Mathlib.Logic.Relation
import Caretaker.Proofs.Session

/-!
# Operations that run alone

An operation that begins while nobody is in the lock, and is not held back, can go on to its end
before anybody else takes a step.  Then it does what its transaction does in a world where nobody
else is.

Main statements:

- `World.run_with_lock`: such a run neither reads nor changes the lock.
- `Operation.run_transaction`: an operation does its work, when nobody else is there.
- `Session.Reachable.conclude`: what an operation comes to alone can be reached.
-/

namespace Caretaker.Crew

open Container (Backend)
open Script

variable {ρ : Type} [Backend ρ]

/-! ## Runs leave the lock alone -/

namespace World

/-- Answers do not depend on the lock. -/
theorem answer_with_lock (w : World ρ) (lock : FairLock) (r : Request) :
    ({ w with lock } : World ρ).answer r =
      ((w.answer r).1, { (w.answer r).2 with lock }) := by
  cases r <;> rfl

/-- Whoever holds the lock, a transaction runs to the same end. -/
theorem run_with_lock {α : Type} (t : Transaction α) (w : World ρ) (lock : FairLock) :
    t.run { w with lock } = ((t.run w).1, { (t.run w).2 with lock }) := by
  induction t generalizing w with
  | done value => rfl
  | ask r next ih =>
    show Transaction.run (next (World.answer r _).1) (World.answer r _).2 = _
    rw [answer_with_lock]
    exact ih _ _

theorem lock_run {α : Type} (t : Transaction α) (w : World ρ) : (t.run w).2.lock = w.lock := by
  induction t generalizing w with
  | done value => rfl
  | ask r next ih => exact (ih _ _).trans (answer_lock w r)

theorem gated_answer (w : World ρ) (r : Request) : (w.answer r).2.gated = w.gated := by
  cases r <;> rfl

theorem gated_run {α : Type} (t : Transaction α) (w : World ρ) :
    (t.run w).2.gated = w.gated := by
  induction t generalizing w with
  | done value => rfl
  | ask r next ih => exact (ih _ _).trans (gated_answer w r)

/-- A request that is not about the lock is answered at once when no call is held back. -/
theorem attempt_of_answer {w : World ρ} {who : Nat} {r : Request} (hgated : w.gated = [])
    (hr : r.isLocking = false) : w.attempt who r = (some (w.answer r).1, (w.answer r).2) := by
  cases r with
  | lock => cases hr
  | tryLock => cases hr
  | unlock => cases hr
  | call c =>
    simp only [attempt, hgated]
    rfl
  | _ => rfl

end World

theorem run_thenUnlock {α : Type} (body : Transaction α) (w : World ρ) :
    (thenUnlock body).run w = body.run w := by
  unfold thenUnlock Transaction.run
  rw [run_bind]
  rfl

/-- A transaction is its work, when nobody else is there. -/
theorem Operation.run_transaction (settings : Settings) (op : Operation) (w : World ρ) :
    (op.transaction settings).run w = (op.work settings).run w := by
  cases haccess : op.access with
  | some access =>
    rw [transaction_of_access haccess]
    exact run_thenUnlock _ w
  | none =>
    cases op with
    | roleStatuses =>
      rw [transaction_roleStatuses]
      exact run_thenUnlock _ w
    | _ => cases haccess

/-! ## Work that runs alone -/

/-- Work that tends containers can be told by accounts as well. -/
theorem ensures_of_only {body : Transaction Result}
    (hbody : body.Only (S := signature) Request.Tends) (s : Account) :
    body.Ensures Account.rule (fun _ _ => True) s := by
  induction body generalizing s with
  | done value => trivial
  | ask r next ih =>
    obtain ⟨hr, hnext⟩ := hbody
    cases r with
    | call c => exact fun answer => ih answer (hnext answer) _
    | log event => exact ih _ (hnext _) _
    | slot role => exact ih _ (hnext _) _
    | lastKnown => exact ih _ (hnext _) _
    | lock => exact hr.elim
    | tryLock => exact hr.elim
    | unlock => exact hr.elim
    | setSlot => exact hr.elim
    | publish => exact hr.elim

/-- Work asks for nothing about the lock. -/
theorem Operation.ensures_unlocking (settings : Settings) (op : Operation) (s : Account) :
    (op.work settings).Ensures Account.rule (fun _ _ => True) s := by
  cases hop : op.isUpdate with
  | true => exact (ensures_work hop s).mono Account.rule_monotone fun _ _ _ => trivial
  | false => exact ensures_of_only (only_work settings hop) s

namespace Session

variable {settings : Settings} {outside : ρ → ρ → Prop} {b : ρ} {s : Session ρ} {who : Nat}
  {op : Operation}

/-- Work under the lock goes on to its end, step by step. -/
theorem steps_work {body : Transaction Result} {account : Account}
    (hwho : s.underway who = some ⟨op, thenUnlock body⟩) (hgated : s.world.gated = [])
    (hfits : account.Fits outside b s.world)
    (hbody : body.Ensures Account.rule (fun _ _ => True) account) :
    Relation.ReflTransGen (Step settings outside) s
      { s with
        world := (Transaction.run body s.world).2
        underway := Function.update s.underway who
          (some ⟨op, thenUnlock (.done (Transaction.run body s.world).1)⟩) } := by
  induction body generalizing s account with
  | done value =>
    -- Nothing is left to be asked for, and the session is the one that it was.
    have hsame : Function.update s.underway who (some ⟨op, thenUnlock (.done value)⟩) =
        s.underway := by
      rw [← hwho]
      exact Function.update_eq_self who s.underway
    show Relation.ReflTransGen _ s { s with
      underway := Function.update s.underway who (some ⟨op, thenUnlock (.done value)⟩) }
    rw [hsame]
  | ask r next ih =>
    -- The account goes on with the answer, so that the rest follows by induction.
    have hlocking : r.isLocking = false := Account.isLocking_of_rule hbody
    have hattempt : s.world.attempt who r =
        (some (s.world.answer r).1, (s.world.answer r).2) :=
      World.attempt_of_answer hgated hlocking
    obtain ⟨account', hfits', hnext⟩ := hfits.answer hbody
    have hstep : Step settings outside s _ :=
      .answers who op r (fun answer => thenUnlock (next answer)) _ _ hwho hattempt
    rw [goOn_thenUnlock] at hstep
    have hgated' : (s.world.answer r).2.gated = [] := (World.gated_answer _ _).trans hgated
    let s' : Session ρ := { s with
      world := (s.world.answer r).2
      underway := Function.update s.underway who
        (some ⟨op, thenUnlock (next (s.world.answer r).1)⟩) }
    have hwho' : s'.underway who = some ⟨op, thenUnlock (next (s.world.answer r).1)⟩ :=
      Function.update_self _ _ _
    have hrest := ih _ hwho' hgated' hfits' hnext
    rw [Function.update_idem] at hrest
    exact .head hstep hrest

/-- Nobody is in the lock, nothing is under way, and no call is held back. -/
structure Idle (s : Session ρ) : Prop where
  underway : s.underway = fun _ => none
  lock : s.world.lock = {}
  gated : s.world.gated = []

/-- What a session comes to by an operation that runs alone. -/
def conclude (settings : Settings) (op : Operation) (s : Session ρ) : Session ρ :=
  { s with
    world := ((op.transaction settings).run s.world).2
    ledger := (op, ((op.transaction settings).run s.world).1) :: s.ledger }

/-- Who begins while nobody is in the lock has it at once. -/
theorem steps_enter (settings : Settings) (outside : ρ → ρ → Prop) (hidle : s.Idle) (who : Nat)
    (op : Operation) :
    ∃ lock : FairLock, lock.release who = {} ∧
      Relation.ReflTransGen (Step settings outside) s
        { s with
          world := { s.world with lock }
          underway := Function.update s.underway who
            (some ⟨op, thenUnlock (op.work settings)⟩) } := by
  let begun : Session ρ := { s with
    underway := Function.update s.underway who (some ⟨op, op.transaction settings⟩) }
  have hbegins : Step settings outside s begun := by
    refine .begins who op ?_
    rw [hidle.underway]
  have hlock : s.world.lock = {} := hidle.lock
  cases haccess : op.access with
  | some access =>
    -- The lock is free, so it is held at once.
    have hwho : begun.underway who = some ⟨op, Script.ask (S := signature) (.lock access)
        fun _ => thenUnlock (op.work settings)⟩ := by
      rw [← Operation.transaction_of_access haccess]
      exact Function.update_self _ _ _
    have hattempt : begun.world.attempt who (.lock access) =
        (some (), { s.world with lock := { holders := [(who, access)] } }) := by
      rw [attempt_lock, hlock]
      cases access <;> rfl
    have hstep : Step settings outside begun _ := .answers who op _ _ _ _ hwho hattempt
    rw [goOn_thenUnlock, Function.update_idem] at hstep
    refine ⟨_, ?_, .head hbegins (.single hstep)⟩
    simp [FairLock.release, FairLock.handOver]
  | none =>
    cases op with
    | roleStatuses =>
      -- The one operation that does not wait finds the lock free.
      have hwho : begun.underway who = some ⟨.roleStatuses, _⟩ := Function.update_self _ _ _
      rw [Operation.transaction_roleStatuses] at hwho
      have hattempt : begun.world.attempt who .tryLock =
          (some true, { s.world with lock := { holders := [(who, .shared)] } }) := by
        rw [attempt_tryLock, hlock]
        rfl
      have hstep : Step settings outside begun _ := .answers who _ _ _ _ _ hwho hattempt
      rw [if_pos rfl, goOn_thenUnlock, Function.update_idem] at hstep
      refine ⟨_, ?_, .head hbegins (.single hstep)⟩
      simp [FairLock.release, FairLock.handOver]
    | _ => cases haccess

theorem Idle.conclude (hidle : s.Idle) (settings : Settings) (op : Operation) :
    (s.conclude settings op).Idle where
  underway := hidle.underway
  lock := (World.lock_run _ _).trans hidle.lock
  gated := (World.gated_run _ _).trans hidle.gated

theorem Reachable.steps {s' : Session ρ} (h : Reachable settings outside b s)
    (hsteps : Relation.ReflTransGen (Step settings outside) s s') :
    Reachable settings outside b s' := by
  induction hsteps with
  | refl => exact h
  | tail _ hstep ih => exact ih.step hstep

/-- What an operation comes to alone can be reached, by a last step that ends it. -/
theorem Reachable.conclude (h : Reachable settings outside b s) (hidle : s.Idle) (op : Operation) :
    ∃ s', Reachable settings outside b s' ∧ s'.ledger = s.ledger ∧
      Step settings outside s' (s.conclude settings op) := by
  obtain ⟨lock, hrelease, henter⟩ := steps_enter settings outside hidle 0 op
  let value := ((op.work settings).run s.world).1
  let w := ((op.work settings).run s.world).2
  let entered : Session ρ := { s with
    world := { s.world with lock }
    underway := Function.update s.underway 0 (some ⟨op, thenUnlock (op.work settings)⟩) }
  let finished : Session ρ := { s with
    world := { w with lock }
    underway := Function.update s.underway 0 (some ⟨op, thenUnlock (.done value)⟩) }
  have hwho : entered.underway 0 = some ⟨op, thenUnlock (op.work settings)⟩ :=
    Function.update_self 0 _ s.underway
  have hwork : Relation.ReflTransGen (Step settings outside) entered _ :=
    steps_work hwho hidle.gated World.fits_account (op.ensures_unlocking settings _)
  rw [World.run_with_lock, Function.update_idem] at hwork
  have hwho' : finished.underway 0 = some ⟨op, thenUnlock (.done value)⟩ :=
    Function.update_self 0 _ s.underway
  have hstep : Step settings outside finished _ := .answers 0 op .unlock _ () _ hwho' rfl
  -- The last step gives the lock back, and nobody is in it again.
  have hlast : finished.goOn 0 op (.done value) { finished.world with lock := lock.release 0 } =
      s.conclude settings op := by
    have hlock : w.lock = {} := (World.lock_run _ _).trans hidle.lock
    have hworld : { w with lock := lock.release 0 } = w := by
      rw [hrelease, ← hlock]
    have hnone : s.underway 0 = none := by rw [hidle.underway]
    have hunderway : Function.update finished.underway 0 none = s.underway := by
      show Function.update (Function.update s.underway 0 _) 0 none = s.underway
      rw [Function.update_idem, ← hnone]
      exact Function.update_eq_self 0 s.underway
    rw [goOn_done, hunderway, Session.conclude, Operation.run_transaction]
    show Session.mk { w with lock := lock.release 0 } _ _ = _
    rw [hworld]
  rw [← hlast]
  exact ⟨finished, (h.steps henter).steps hwork, rfl, hstep⟩

/-! ## Sessions that go on from others -/

/-- A crew on a backend, at whose start nothing happened yet. -/
def fresh (b : ρ) : Session ρ := { world := { backend := b } }

/-- A session whose backend was changed from outside. -/
def moved (f : ρ → ρ) (s : Session ρ) : Session ρ :=
  { s with world := { s.world with backend := f s.world.backend } }

omit [Backend ρ] in
theorem idle_fresh (b : ρ) : (fresh b).Idle := ⟨rfl, rfl, rfl⟩

omit [Backend ρ] in
theorem Idle.moved (hidle : s.Idle) (f : ρ → ρ) : (s.moved f).Idle :=
  ⟨hidle.underway, hidle.lock, hidle.gated⟩

theorem Reachable.moved (h : Reachable settings outside b s) {f : ρ → ρ}
    (hmove : outside s.world.backend (f s.world.backend)) :
    Reachable settings outside b (s.moved f) :=
  h.step (.moves _ hmove)

theorem Reachable.concluded (h : Reachable settings outside b s) (hidle : s.Idle)
    (op : Operation) : Reachable settings outside b (s.conclude settings op) := by
  obtain ⟨s', hreach, -, hstep⟩ := h.conclude hidle op
  exact hreach.step hstep

end Session

/-- Settings of a development machine. -/
def developmentSettings : Settings where
  development := true
  nodeDir := "/var/lib/node-runner"
  passphrase := ""
  autoUpdate := true
  scanUrl := "http://localhost:8545"
  traceEnabled := false
  traceUrl := ""
  publishUrl := "http://localhost:8080"
  registry := "localhost:1970"
  logLevel := "info"
  maxLogSize := "50m"
  maxLogFiles := 10
  supervisorImage := "node-runner/supervisor:latest"
  updaterImage := "node-runner/updater:latest"
  healthAddress := .v4 ⟨0, 0, 0, 0⟩ 8090
  engineSocket := "/var/run/docker.sock"
  keepAliveSeconds := 10

/-- Refs that differ in the image of the supervisor only. -/
def Sample.refs (supervisor : String) : ImageRefs := { supervisor, updater := "upd:v1" }

end Caretaker.Crew
