import Caretaker.Container.Memory
import Caretaker.Proofs.Alone
import Caretaker.Proofs.Dialogue
import Caretaker.Proofs.Docket
import Caretaker.Proofs.LastKnown

/-!
# What the copy of the roster tells

Who asks for the status of the roles while the lock is taken is told what the copy of the roster
says.  Only an update at work can have the copy behind, and nobody else changes the roster or the
copy meanwhile; so the copy tells of each role what is guarded, but for one role that is being
published or whose container is awaited.

Main definitions:

- `Session.Shown`: the update at work goes on with the copy as it may stand.
- `Behind`, `Session.Lags`: what is told of one role is behind.

Main statements:

- `Reachable.shown`: the copy stands as it may, whatever goes on.
- `roleStatuses_of_copy`: what is told of the copy, and that no call is made for it.
-/

namespace Caretaker.Crew

open Container (Backend)
open Script

/-! ## Sessions -/

namespace Session

variable {ρ : Type} [Backend ρ] {settings : Settings} {outside : ρ → ρ → Prop}
  {s s' : Session ρ} {busy : Option Nat} {who other : Nat} {op : Operation}

/-- Whether the update at work goes on with the copy as it may stand. -/
def Shown (s : Session ρ) (busy : Option Nat) : Prop :=
  ∀ who, busy = some who → ∃ op body account b,
    s.underway who = some ⟨op, thenUnlock body⟩ ∧
      account.Fits (fun _ _ => True) b s.world ∧
      body.Ensures Account.showing (fun _ s' => s'.lastKnown = s'.roster) account

/-- What is done under the lock does not ask for it. -/
theorem thenUnlock_ne_lock {body : Transaction Result} {account : Account}
    {post : Result → Account → Prop} (hbody : body.Ensures Account.rule post account)
    {access : Access} {next : Unit → Transaction Result} :
    thenUnlock body ≠ Script.ask (S := signature) (.lock access) next := by
  intro hrest
  cases body with
  | done value => cases hrest
  | ask r next =>
    cases hrest
    exact hbody

/-- Where an operation stands is told by what it still does. -/
theorem Stands.cases_of_pending {lock : FairLock} {rest : Transaction Result}
    (h : Stands settings lock who (some ⟨op, rest⟩)) :
    rest = op.transaction settings ∨
      op.isUpdate = false ∧
        ((∃ body access, rest = thenUnlock body ∧ (who, access) ∈ lock.holders) ∨
          ∃ f : Roster → Result, rest =
            Script.ask (S := signature) .lastKnown fun roster => .done (f roster)) := by
  generalize hpending : some (Pending.mk op rest) = pending at h
  cases h with
  | absent => cases hpending
  | asking op' =>
    obtain ⟨rfl, rfl⟩ := Pending.mk.inj (Option.some.inj hpending)
    exact .inl rfl
  | tending op' body access hop hholds =>
    obtain ⟨rfl, rfl⟩ := Pending.mk.inj (Option.some.inj hpending)
    exact .inr ⟨hop, .inl ⟨body, access, rfl, hholds⟩⟩
  | glancing op' f hop =>
    obtain ⟨rfl, rfl⟩ := Pending.mk.inj (Option.some.inj hpending)
    exact .inr ⟨hop, .inr ⟨f, rfl⟩⟩

/-- An update that is under way, and not the one at work, did nothing yet. -/
theorem Invariant.transaction_of_update {holds : List Turn → Roster → ρ → Prop}
    (h : Invariant settings outside holds s busy) (hop : op.isUpdate = true)
    {rest : Transaction Result} (hwho : s.underway who = some ⟨op, rest⟩)
    (hbusy : busy ≠ some who) :
    rest = Script.ask (S := signature) (.lock .exclusive) fun _ =>
      thenUnlock (op.work settings) := by
  have hstands := h.others who hbusy
  rw [hwho] at hstands
  rcases hstands.cases_of_pending with hrest | ⟨hnot, -⟩
  · rw [hrest, Operation.transaction_of_access (Operation.access_of_update hop)]
  · rw [hop] at hnot
    cases hnot

/-- An update under way that is past the lock is the one at work. -/
theorem Invariant.busy_of_pending {holds : List Turn → Roster → ρ → Prop}
    (h : Invariant settings outside holds s busy) {body : Transaction Result} {account : Account}
    {post : Result → Account → Prop} (hop : op.isUpdate = true)
    (hbody : body.Ensures Account.rule post account)
    (hwho : s.underway who = some ⟨op, thenUnlock body⟩) : busy = some who := by
  by_contra hbusy
  exact thenUnlock_ne_lock hbody (h.transaction_of_update hop hwho hbusy)

/-- While an update is at work the requests of others leave the roster and its copy alone. -/
theorem Invariant.attempt_of_other {holds : List Turn → Roster → ρ → Prop}
    (h : Invariant settings outside holds s (some who)) (hne : other ≠ who) {r : Request}
    {next : r.Answer → Transaction Result}
    (hother : s.underway other = some ⟨op, Script.ask (S := signature) r next⟩) :
    (s.world.attempt other r).2.roster = s.world.roster ∧
      (s.world.attempt other r).2.lastKnown = s.world.lastKnown := by
  have hbusy : some who ≠ some other := fun heq => hne (Option.some.inj heq).symm
  have hstands := h.others other hbusy
  rw [hother] at hstands
  rcases hstands.cases_of_pending with hrest | ⟨-, ⟨body, access, -, hholds⟩ | ⟨f, hrest⟩⟩
  · cases haccess : op.access with
    | some access =>
      rw [Operation.transaction_of_access haccess] at hrest
      cases hrest
      exact ⟨rfl, rfl⟩
    | none =>
      cases op with
      | roleStatuses =>
        rw [Operation.transaction_roleStatuses] at hrest
        cases hrest
        exact ⟨rfl, rfl⟩
      | _ => cases haccess
  · -- It would hold the lock beside the update.
    cases h.not_busy hbusy hholds
  · cases hrest
    exact ⟨rfl, rfl⟩

omit [Backend ρ] in
/-- What is under way after an answer is what the answer leads to. -/
theorem pending_of_goOn {rest rest' : Transaction Result} {op' : Operation} {w : World ρ}
    (h : (s.goOn who op rest w).underway who = some ⟨op', rest'⟩) : op = op' ∧ rest = rest' := by
  cases rest with
  | done result =>
    simp only [goOn, Function.update_self] at h
    cases h
  | ask r next =>
    simp only [goOn, Function.update_self] at h
    exact Pending.mk.inj (Option.some.inj h)

/-- An update at work stays as it is while it makes no request and nobody else changes what it
guards. -/
theorem Shown.stays {holds : List Turn → Roster → ρ → Prop} {busy' : Option Nat}
    (h : Shown s busy) (hs : Invariant settings outside holds s busy)
    (hs' : Invariant settings outside holds s' busy')
    (hunderway : ∀ who, busy' = some who → s.underway who = s'.underway who)
    (hworld : ∀ who, busy = some who → busy' = some who →
      s'.world.roster = s.world.roster ∧ s'.world.lastKnown = s.world.lastKnown) :
    Shown s' busy' := by
  intro who hbusy'
  obtain ⟨op, body, account, roster, b, hupdating⟩ := hs'.updating_of_busy hbusy'
  have hpending := (hunderway who hbusy').trans hupdating.pending
  have hbusy := hs.busy_of_pending hupdating.update hupdating.ensures hpending
  obtain ⟨op', body', account', b', hwho, hfits, hshowing⟩ := h who hbusy
  obtain ⟨hroster, hcopy⟩ := hworld who hbusy hbusy'
  refine ⟨op', body', account', b', (hunderway who hbusy').symm.trans hwho, ?_, hshowing⟩
  exact ⟨hroster.trans hfits.roster, hcopy.trans hfits.lastKnown, hfits.calls.moved trivial⟩

/-- Who is at work after an answer was so before, or was let in and finds the copy up to date. -/
theorem Shown.answers {holds : List Turn → Roster → ρ → Prop} (h : Shown s busy)
    (hs : Invariant settings outside holds s busy) {r : Request}
    {next : r.Answer → Transaction Result} {answer : r.Answer} {w : World ρ}
    (hwho : s.underway who = some ⟨op, Script.ask (S := signature) r next⟩)
    (hattempt : s.world.attempt who r = (some answer, w))
    (hs' : Invariant settings outside holds (s.goOn who op (next answer) w) (some who)) :
    Shown (s.goOn who op (next answer) w) (some who) := by
  obtain ⟨op', body, account, roster, b, hupdating⟩ := hs'.updating_of_busy rfl
  obtain ⟨rfl, hnext⟩ := pending_of_goOn hupdating.pending
  intro other hother
  obtain rfl := Option.some.inj hother
  by_cases hbusy : busy = some who
  · obtain ⟨op', body', account', b', hpending, hfits, hshowing⟩ := h who hbusy
    obtain ⟨rfl, hrest⟩ := Pending.mk.inj (Option.some.inj (hpending.symm.trans hwho))
    cases body' with
    | done value =>
      -- The lock is given back, and nothing is left to do.
      rw [thenUnlock_done] at hrest
      cases hrest
      cases body <;> cases hnext
    | ask _ next' =>
      rw [thenUnlock_ask] at hrest
      cases hrest
      have hlocking : r.isLocking = false := Account.isLocking_of_rule hshowing.2
      have hanswer := World.answer_of_attempt hlocking hattempt
      obtain ⟨account'', hfits', hshowing'⟩ := hfits.answer hshowing.2
      rw [hanswer] at hfits' hshowing'
      rw [goOn_thenUnlock]
      exact ⟨op', next' answer, account'', b', Function.update_self _ _ _, hfits', hshowing'⟩
  · have hrest := hs.transaction_of_update hupdating.update hwho hbusy
    cases hrest
    obtain ⟨-, rfl⟩ := Prod.mk.inj hattempt
    -- No other update was at work: both would hold the lock alone.
    have hfree : busy = none := by
      cases hbusy' : busy with
      | none => rfl
      | some other =>
        obtain ⟨op', body', account', roster', b', hupdating'⟩ := hs.updating_of_busy hbusy'
        have halone : (who, Access.exclusive) ∈
            (s.world.lock.acquire who Access.exclusive).2.holders := by
          have hholds := hupdating.alone
          rwa [world_goOn] at hholds
        have hsound : (s.world.lock.acquire who Access.exclusive).2.Sound := hs.lock.acquire
        have heq := hsound.eq_of_exclusive halone
          (FairLock.holders_subset_acquire hupdating'.alone)
        rw [hbusy', heq] at hbusy
        exact absurd rfl hbusy
    subst hfree
    have hcurrent : s.world.account.lastKnown = s.world.account.roster := hs.stock.1
    beta_reduce
    rw [goOn_thenUnlock]
    exact ⟨op, op.work settings, s.world.account, s.world.backend, Function.update_self _ _ _,
      ⟨rfl, rfl, .start⟩, Operation.shows_work hupdating.update hcurrent⟩

/-- One step leaves the update at work with the copy as it may stand. -/
theorem Shown.step {holds : List Turn → Roster → ρ → Prop} {busy' : Option Nat} (h : Shown s busy)
    (hs : Invariant settings outside holds s busy)
    (hs' : Invariant settings outside holds s' busy') (hstep : Step settings outside s s') :
    Shown s' busy' := by
  cases hstep with
  | begins other op hfree =>
    refine h.stays hs hs' (fun who hbusy' => ?_) fun _ _ _ => ⟨rfl, rfl⟩
    obtain ⟨op', body, account, roster, b, hupdating⟩ := hs'.updating_of_busy hbusy'
    by_cases heq : who = other
    · -- Who only begins is not past the lock.
      subst heq
      have hpending := (Function.update_self who (some _) s.underway).symm.trans hupdating.pending
      obtain ⟨rfl, hrest⟩ := Pending.mk.inj (Option.some.inj hpending)
      rw [Operation.transaction_of_access (Operation.access_of_update hupdating.update)] at hrest
      exact absurd hrest.symm (thenUnlock_ne_lock hupdating.ensures)
    · exact (Function.update_of_ne heq _ _).symm
  | waits other op r next w hother hattempt =>
    refine h.stays hs hs' (fun _ _ => rfl) fun who hbusy _ => ?_
    rcases attempt_waits hattempt with rfl | ⟨access, rfl, rfl⟩
    · exact ⟨rfl, rfl⟩
    · exact ⟨rfl, rfl⟩
  | moves b hmove => exact h.stays hs hs' (fun _ _ => rfl) fun _ _ _ => ⟨rfl, rfl⟩
  | gates gated => exact h.stays hs hs' (fun _ _ => rfl) fun _ _ _ => ⟨rfl, rfl⟩
  | answers other op r next answer w hother hattempt =>
    by_cases hbusy' : busy' = some other
    · subst hbusy'
      exact h.answers hs hother hattempt hs'
    · have hne : ∀ who, busy' = some who → who ≠ other := by
        rintro who hbusy rfl
        exact hbusy' hbusy
      refine h.stays hs hs' (fun who hwho => (underway_goOn_of_ne (hne who hwho) _).symm) ?_
      intro who hbusy hwho
      subst hbusy
      have hleaves := hs.attempt_of_other (hne who hwho).symm hother
      rw [hattempt] at hleaves
      rwa [world_goOn]

/-- The copy stands as it may, whatever goes on. -/
theorem Reachable.shown {b : ρ} (h : Reachable settings outside b s) :
    ∃ busy, Invariant settings outside (fun _ _ _ => True) s busy ∧ Shown s busy := by
  induction h with
  | start =>
    refine ⟨none, ⟨FairLock.sound_empty, fun who _ => .absent fun access he => ?_, rfl, trivial⟩,
      nofun⟩
    exact absurd he List.not_mem_nil
  | step _ hstep ih =>
    obtain ⟨busy, hinvariant, hshown⟩ := ih
    obtain ⟨busy', hinvariant', -⟩ := hinvariant.step (kept_true settings outside) hstep
    exact ⟨busy', hinvariant', hshown.step hinvariant hinvariant' hstep⟩

/-- An operation under way did what its transaction asks for, up to now. -/
theorem Reachable.leads {b : ρ} (h : Reachable settings outside b s) {rest : Transaction Result}
    (hwho : s.underway who = some ⟨op, rest⟩) :
    ∃ dialogue, Leads (op.transaction settings) dialogue rest := by
  induction h generalizing op rest with
  | start => cases hwho
  | step _ hstep ih =>
    cases hstep with
    | begins other op' hfree =>
      by_cases heq : who = other
      · subst heq
        simp only [Function.update_self] at hwho
        obtain ⟨rfl, rfl⟩ := Pending.mk.inj (Option.some.inj hwho)
        exact ⟨[], .here⟩
      · exact ih ((Function.update_of_ne heq _ _).symm.trans hwho)
    | answers other op' r next answer w hother hattempt =>
      by_cases heq : who = other
      · subst heq
        obtain ⟨rfl, rfl⟩ := pending_of_goOn hwho
        obtain ⟨dialogue, hleads⟩ := ih hother
        exact ⟨_, hleads.concat answer⟩
      · exact ih ((underway_goOn_of_ne heq _).symm.trans hwho)
    | waits other op' r next w hother hattempt => exact ih hwho
    | moves b hmove => exact ih hwho
    | gates gated => exact ih hwho

end Session

/-! ## What is told of the copy -/

/-- Under the lock a status is not told of the copy. -/
theorem only_statusLocked_guarded (role : Role) :
    (statusLocked role).Only (S := signature) (· ≠ .lastKnown) := by
  unfold statusLocked
  refine .bind ⟨nofun, fun slot => trivial⟩ fun slot => ?_
  cases slot.container with
  | none => trivial
  | some handle =>
    refine .bind ⟨nofun, fun answer => trivial⟩ fun answer => ?_
    cases answer with
    | error cause => exact ⟨nofun, fun _ => trivial⟩
    | ok info => trivial

theorem only_roleStatuses_guarded (settings : Settings) :
    (thenUnlock (Operation.roleStatuses.work settings)).Only (S := signature)
      (· ≠ .lastKnown) := by
  refine .bind (.map _ ?_) fun _ => ⟨nofun, fun _ => trivial⟩
  simp only [statusesLocked, Role.all, List.mapM_cons, List.mapM_nil]
  refine .bind (only_statusLocked_guarded .updater) fun _ => ?_
  refine .bind (.bind (only_statusLocked_guarded .supervisor) fun _ => ?_) fun _ => trivial
  trivial

/-- Who reads the copy was refused the lock, did nothing else, and ends with what it reads. -/
theorem Operation.leads_lastKnown {settings : Settings}
    {dialogue : List (Script.Exchange signature)} {next : Roster → Transaction Result}
    (h : Leads (roleStatuses.transaction settings) dialogue
      (Script.ask (S := signature) .lastKnown next)) :
    dialogue = [⟨.tryLock, false⟩] ∧
      next = fun roster =>
        .done (.statuses (Role.all.map fun role => (roster.slot role).status role none)) := by
  rw [transaction_roleStatuses] at h
  cases h with
  | @asks _ _ held dialogue _ h =>
    cases held with
    | true => exact absurd rfl (h.only (only_roleStatuses_guarded settings)).2.1
    | false =>
      cases h with
      | here => exact ⟨rfl, rfl⟩
      | asks h =>
        obtain ⟨-, hrest⟩ := leads_done.1 h
        cases hrest

/-- What is told of a role when its container is not asked. -/
def Roster.told (roster : Roster) (role : Role) : RoleStatus := (roster.slot role).status role none

/-- Whether the copy tells less of one role than what is guarded while an update is about to make a
request: the slot was written and is published next, or the container that is awaited is not told
of. -/
def Behind (r : Request) (role : Role) (guarded copy : Roster) : Prop :=
  copy.told role.other = guarded.told role.other ∧
    (r = .publish role ∨
      ∃ handle : Handle,
        guarded.told role = { copy.told role with containerId := some handle.id } ∧
          (copy.told role).containerId = none ∧ (copy.told role).phase = .starting ∧
          ∀ c, r = .call c → c = .awaitStart handle.id)

/-- What is told of the copy is current, but for one role at most. -/
theorem Shows.behind {r : Request} {guarded copy : Roster} (h : Shows r guarded copy) :
    (∀ role, copy.told role = guarded.told role) ∨ ∃ role, Behind r role guarded copy := by
  cases h with
  | current hsame => exact .inl fun role => by rw [hsame]
  | publishing role hother hnext =>
    refine .inr ⟨role, ?_, .inl hnext⟩
    rw [Roster.told, hother, Roster.told]
  | unconfirmed role handle hslot hcall =>
    refine .inr ⟨role, ?_, .inr ⟨handle, ?_, ?_, hslot.starting, hcall⟩⟩
    · rw [Roster.told, hslot.other, Roster.told]
    · rw [Roster.told, hslot.guarded, Roster.slot_put_self]
      rfl
    · show (copy.slot role).container.map (·.id) = none
      rw [hslot.vacant]
      rfl

/-- Whether an update is at work, alone in the lock, that the copy is behind of. -/
def Session.Lags {ρ : Type} (s : Session ρ) : Prop :=
  ∃ who op r rest role, op.isUpdate = true ∧
    s.underway who = some ⟨op, Script.ask (S := signature) r rest⟩ ∧
    (who, .exclusive) ∈ s.world.lock.holders ∧ Behind r role s.world.roster s.world.lastKnown

namespace Sample

/-- The supervisor is launched, as far as it comes by some requests while the start of its container
is not confirmed.  Somebody asks for the status of the roles then. -/
def launching (requests : Nat) : Docket Container.Memory :=
  (Docket.start {}).run developmentSettings
    ([.gates [.awaitStart], .begins (.replace .supervisor (refs "sup:v1"))] ++
      List.replicate requests (.goesOn 0) ++ [.begins .roleStatuses, .goesOn 1])

theorem reachable_launching (requests : Nat) :
    Session.Reachable developmentSettings (fun _ _ => True) {} (launching requests).toSession :=
  ((Docket.booked_start developmentSettings ({} : Container.Memory)).run _).reachable

end Sample

/-- Who asks for the status of the roles and is refused the lock makes no call and is told of the
copy.  That tells of each role what is guarded, except while an update is between a write and its
publication, or awaits the start of a container. -/
theorem roleStatuses_of_copy {ρ : Type} [Backend ρ] {settings : Settings}
    {outside : ρ → ρ → Prop} {b : ρ} {s : Session ρ} (h : Session.Reachable settings outside b s)
    {who : Nat} {next : Roster → Transaction Result}
    (hwho : s.underway who =
      some ⟨.roleStatuses, Script.ask (S := signature) .lastKnown next⟩) :
    Leads (Operation.roleStatuses.transaction settings) [⟨.tryLock, false⟩]
        (Script.ask (S := signature) .lastKnown next) ∧
      next s.world.lastKnown = .done (.statuses (Role.all.map s.world.lastKnown.told)) ∧
      ((∀ role, s.world.lastKnown.told role = s.world.roster.told role) ∨ s.Lags) := by
  obtain ⟨dialogue, hleads⟩ := h.leads hwho
  obtain ⟨rfl, hnext⟩ := Operation.leads_lastKnown hleads
  refine ⟨hleads, by rw [hnext]; rfl, ?_⟩
  obtain ⟨busy, hinvariant, hshown⟩ := h.shown
  cases busy with
  | none =>
    have hcurrent : s.world.lastKnown = s.world.roster := hinvariant.stock.1
    exact .inl fun role => by rw [hcurrent]
  | some other =>
    obtain ⟨op, body, account, roster, b₀, hupdating⟩ := hinvariant.updating_of_busy rfl
    obtain ⟨op', body', account', b', hpending, hfits, hshowing⟩ := hshown other rfl
    obtain ⟨rfl, hrest⟩ := Pending.mk.inj (Option.some.inj (hupdating.pending.symm.trans hpending))
    cases body' with
    | done result =>
      -- The lock is about to be given back.
      have hcurrent : s.world.lastKnown = s.world.roster := by
        rw [hfits.lastKnown, hfits.roster]
        exact hshowing
      exact .inl fun role => by rw [hcurrent]
    | ask r rest =>
      have hshows : Shows r s.world.roster s.world.lastKnown := by
        rw [hfits.lastKnown, hfits.roster]
        exact hshowing.1
      rcases hshows.behind with hsame | ⟨role, hbehind⟩
      · exact .inl hsame
      · exact .inr ⟨other, op, r, _, role, hupdating.update, hpending, hupdating.alone, hbehind⟩

theorem roleStatuses_of_copy_launching :
    ∃ next : Roster → Transaction Result,
      (Sample.launching 20).underway 1 =
          some ⟨.roleStatuses, Script.ask (S := signature) .lastKnown next⟩ ∧
        Leads (Operation.roleStatuses.transaction developmentSettings) [⟨.tryLock, false⟩]
          (Script.ask (S := signature) .lastKnown next) ∧
        next (Sample.launching 20).world.lastKnown =
          .done (.statuses (Role.all.map (Sample.launching 20).world.lastKnown.told)) ∧
        ((∀ role, (Sample.launching 20).world.lastKnown.told role =
            (Sample.launching 20).world.roster.told role) ∨
          (Sample.launching 20).toSession.Lags) := by
  have hwho : (Sample.launching 20).underway 1 =
      some ⟨.roleStatuses, Script.ask (S := signature) .lastKnown _⟩ := rfl
  exact ⟨_, hwho, roleStatuses_of_copy (Sample.reachable_launching 20) hwho⟩

/-- What is told of the copy is not always what is guarded: the container of a role is not told of
while its start is awaited, and the phase that a slot was moved to is told of only when it is
published. -/
theorem roleStatuses_behind_launching :
    (∀ requests, Session.Reachable developmentSettings (fun _ _ => True) {}
        (Sample.launching requests).toSession) ∧
      (∃ next : Roster → Transaction Result,
        (Sample.launching 20).underway 1 =
            some ⟨.roleStatuses, Script.ask (S := signature) .lastKnown next⟩ ∧
          next (Sample.launching 20).world.lastKnown =
            .done (.statuses (Role.all.map (Sample.launching 20).world.lastKnown.told)) ∧
          ((Sample.launching 20).world.lastKnown.told .supervisor).containerId = none ∧
          ((Sample.launching 20).world.roster.told .supervisor).containerId =
            some "ctr_000000000000") ∧
      ∃ next : Roster → Transaction Result,
        (Sample.launching 6).underway 1 =
            some ⟨.roleStatuses, Script.ask (S := signature) .lastKnown next⟩ ∧
          next (Sample.launching 6).world.lastKnown =
            .done (.statuses (Role.all.map (Sample.launching 6).world.lastKnown.told)) ∧
          ((Sample.launching 6).world.lastKnown.told .supervisor).phase = .idle ∧
          ((Sample.launching 6).world.roster.told .supervisor).phase = .imageEnsured := by
  refine ⟨Sample.reachable_launching, ⟨_, rfl, ?_, ?_, ?_⟩, ⟨_, rfl, ?_, ?_, ?_⟩⟩
  · rfl
  · rfl
  · rfl
  · rfl
  · rfl
  · rfl

end Caretaker.Crew
